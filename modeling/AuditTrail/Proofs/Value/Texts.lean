/-
The texts of a value: its keys and texts at every depth, and the value
with a function applied to all of them. With no function at all
(`mapTexts id`) what is left of the vocabulary is the texts that stand for
its members: so a value looks to those who know it from its written form.
-/
import AuditTrail.Value.Show

namespace AuditTrail.Value

mutual

/-- The value with a function applied to its keys and texts, at every
depth; a member of the vocabulary is the text that stands for it. -/
def mapTexts (g : Text → Text) : Value → Value
  | .text s => .text (g s)
  | .term t => .text (g t.wire)
  | .list items => .list (mapItemTexts g items)
  | .tuple items => .tuple (mapItemTexts g items)
  | .map entries => .map (mapEntryTexts g entries)
  | v => v
termination_by structural v => v

/-- The items with the function applied to their texts. -/
def mapItemTexts (g : Text → Text) : List Value → List Value
  | [] => []
  | v :: rest => mapTexts g v :: mapItemTexts g rest
termination_by structural items => items

/-- The entries with the function applied to their keys and texts. All of
them stay, also under keys that become equal. -/
def mapEntryTexts (g : Text → Text) :
    List (Value × Value) → List (Value × Value)
  | [] => []
  | (k, v) :: rest => (mapTexts g k, mapTexts g v) :: mapEntryTexts g rest
termination_by structural entries => entries

end

mutual

/-- The keys and texts of a value, at every depth. -/
def texts : Value → List Text
  | .text s => [s]
  | .term t => [t.wire]
  | .list items => itemTexts items
  | .tuple items => itemTexts items
  | .map entries => entryTexts entries
  | _ => []
termination_by structural v => v

/-- The texts of some items. -/
def itemTexts : List Value → List Text
  | [] => []
  | v :: rest => texts v ++ itemTexts rest
termination_by structural items => items

/-- The keys and texts of some entries. -/
def entryTexts : List (Value × Value) → List Text
  | [] => []
  | (k, v) :: rest => texts k ++ (texts v ++ entryTexts rest)
termination_by structural entries => entries

end

variable {g : Text → Text}

theorem mapItemTexts_eq (items : List Value) :
    mapItemTexts g items = items.map (mapTexts g) := by
  induction items with
  | nil => rfl
  | cons v rest ih => rw [mapItemTexts, ih, List.map_cons]

theorem mapEntryTexts_eq (entries : Entries) :
    mapEntryTexts g entries
      = entries.map fun e => (mapTexts g e.1, mapTexts g e.2) := by
  induction entries with
  | nil => rfl
  | cons e rest ih =>
      obtain ⟨k, v⟩ := e
      rw [mapEntryTexts, ih, List.map_cons]

end AuditTrail.Value
