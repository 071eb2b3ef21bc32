/-
What the layout of JSON text changes.

Whether a value can be written is the same in every layout, and where it
cannot, writing ends at the same part (`offence?`): the first one, in the
order of the text, that has no JSON form. The layouts only word it
differently. What is written in both differs in white space outside of
strings alone: without it (`squeeze`) the indented text is the one on one
line.
-/
import AuditTrail.Proofs.Json.Parts

namespace AuditTrail.Json

open Redaction (escapeDigits escaped escaped_cons escapedChar_of_isPlain
  exists_escape isPlain writeText_eq)

variable {style : Style} {α β : Type} {v : Value} {s t u w rest : Text}
  {o o' : Option Offence}

-- ============================================================== offences

/-- A part of a value that keeps it from being written. -/
inductive Offence where
  /-- A key that is no scalar. -/
  | key (k : Value)
  /-- A value without a JSON form. -/
  | value (v : Value)
  /-- A container inside itself. -/
  | circular
  /-- An integer of too many digits. -/
  | tooManyDigits

/-- What writing in some style ends in at an offence. -/
def Offence.error (style : Style) : Offence → WriteError
  | .key k => .key (keyFamily style k)
  | .value v => .value v.family
  | .circular => .circular
  | .tooManyDigits => .tooManyDigits

/-- The wording of an offence in some style. -/
def Offence.message (style : Style) (o : Offence) : Text :=
  (o.error style).message

/-- A key whose type has a name in full that is not its short one. -/
inductive Offence.IsQualifiedKey : Offence → Prop
  | date (d : Date) : IsQualifiedKey (.key (.date d))
  | dateTime (d : DateTime) : IsQualifiedKey (.key (.dateTime d))
  | agent {c : Conduct} (items : List Value) (hc : c.qualified ≠ c.family) :
    IsQualifiedKey (.key (.agent c items))

theorem Offence.isQualifiedKey_iff {k : Value} :
    (Offence.key k).IsQualifiedKey ↔ k.qualifiedFamily ≠ k.family := by
  cases k with
  | date d =>
      have hname : "datetime.date".toList ≠ "date".toList := by decide
      exact iff_of_true (.date d) hname
  | dateTime d =>
      have hname : "datetime.datetime".toList ≠ "datetime".toList := by decide
      exact iff_of_true (.dateTime d) hname
  | agent c items =>
      refine ⟨fun h => ?_, .agent items⟩
      cases h with
      | agent _ hc => exact hc
  | _ => exact iff_of_false nofun fun h => h rfl

/-- The wording differs for these keys only. -/
theorem Offence.message_eq_iff (o : Offence) :
    o.message .compact = o.message .pretty ↔ ¬ o.IsQualifiedKey := by
  cases o with
  | key k =>
      rw [isQualifiedKey_iff, not_not]
      exact List.append_right_inj _
  | value v => exact iff_of_true rfl nofun
  | circular => exact iff_of_true rfl nofun
  | tooManyDigits => exact iff_of_true rfl nofun

/-- What is wrong with an integer. -/
def digitsOffence? (n : Int) : Option Offence :=
  if Value.hasTooManyDigits n then some .tooManyDigits else none

/-- What is wrong with a key. -/
def keyOffence? : Value → Option Offence
  | .null | .bool _ | .float _ | .text _ | .term _ => none
  | .int n => digitsOffence? n
  | k => some (.key k)

mutual

/-- The first part of a value, in the order of its text, that keeps it from
being written. -/
def offence? : Value → Option Offence
  | .null | .bool _ | .float _ | .text _ | .term _ => none
  | .int n => digitsOffence? n
  | .list items | .tuple items => itemsOffence? items
  | .map entries => entriesOffence? entries
  | .cycle _ => some .circular
  | v => some (.value v)
termination_by structural v => v

def itemsOffence? : List Value → Option Offence
  | [] => none
  | v :: rest => (offence? v).or (itemsOffence? rest)
termination_by structural items => items

def entriesOffence? : List (Value × Value) → Option Offence
  | [] => none
  | (k, v) :: rest =>
    (keyOffence? k).or ((offence? v).or (entriesOffence? rest))
termination_by structural entries => entries

end

/-- How writing something ends that has a first offence, or has none. -/
inductive Meets (style : Style) :
    Except WriteError α → Option Offence → Prop
  | written (a : α) : Meets style (.ok a) none
  | ended (o : Offence) : Meets style (.error (o.error style)) (some o)

namespace Meets

variable {x : Except WriteError α}

theorem map (h : Meets style x o) (g : α → β) :
    Meets style (x.map g) o := by
  cases h with
  | written a => exact .written (g a)
  | ended o => exact .ended o

theorem exists_eq_ok (h : Meets style x none) : ∃ a, x = .ok a := by
  cases h with
  | written a => exact ⟨a, rfl⟩

theorem eq_error {o : Offence} (h : Meets style x (some o)) :
    x = .error (o.error style) := by
  cases h with
  | ended => rfl

/-- What comes later counts where nothing was wrong before. -/
theorem bind {g : α → Except WriteError β} (h : Meets style x o)
    (hg : ∀ a, Meets style (g a) o') : Meets style (x >>= g) (o.or o') := by
  cases h with
  | written a => exact hg a
  | ended o => exact .ended o

end Meets

theorem meets_writeInt (style : Style) (n : Int) :
    Meets style (writeInt n) (digitsOffence? n) := by
  unfold writeInt digitsOffence? Value.hasTooManyDigits
  split
  case isTrue hn =>
    rw [if_pos (decide_eq_true hn)]
    exact .ended .tooManyDigits
  case isFalse hn =>
    rw [if_neg (by rw [decide_eq_false hn]; exact Bool.false_ne_true)]
    exact .written _

theorem meets_keyText (style : Style) (k : Value) :
    Meets style (keyText style k) (keyOffence? k) := by
  cases k with
  | int n =>
      rw [keyText, keyOffence?]
      exact meets_writeInt style n
  | null
  | bool
  | float
  | text
  | term => exact .written _
  | _ => exact .ended (.key _)

/-- Without plain forms to stand in, a value that has nothing else is an
offence. -/
theorem meets_writeOther (hstrict : style.lenient = false) (v : Value) :
    Meets style (writeOther style v) (some (.value v)) := by
  unfold writeOther
  rw [hstrict]
  exact .ended (.value v)

mutual

/-- Writing ends at the first offence, in every layout. -/
theorem meets_writeAt (hstrict : style.lenient = false) (depth : Nat)
    (v : Value) : Meets style (writeAt style depth v) (offence? v) := by
  cases v with
  | int n =>
      rw [writeAt, offence?]
      exact meets_writeInt style n
  | null
  | bool
  | float
  | text
  | term => exact .written _
  | list items
  | tuple items => exact (meets_writeItems hstrict (depth + 1) items).map _
  | map entries =>
      exact (meets_writeEntries hstrict (depth + 1) entries).map _
  | cycle => exact .ended .circular
  | bytes
  | set
  | date
  | dateTime
  | foreign
  | agent => exact meets_writeOther hstrict _
termination_by structural v

theorem meets_writeItems (hstrict : style.lenient = false) (depth : Nat)
    (items : List Value) :
    Meets style (writeItems style depth items) (itemsOffence? items) := by
  cases items with
  | nil => exact .written []
  | cons v rest =>
      exact (meets_writeAt hstrict depth v).bind fun _ =>
        (meets_writeItems hstrict depth rest).map _
termination_by structural items

theorem meets_writeEntries (hstrict : style.lenient = false) (depth : Nat)
    (entries : List (Value × Value)) :
    Meets style (writeEntries style depth entries)
      (entriesOffence? entries) := by
  cases entries with
  | nil => exact .written []
  | cons e rest =>
      obtain ⟨k, v⟩ := e
      exact (meets_keyText style k).bind fun _ =>
        (meets_writeAt hstrict depth v).bind fun _ =>
          (meets_writeEntries hstrict depth rest).map _
termination_by structural entries

end

-- =========================================================== white space

/-- A text without the white space outside of its strings; the first
argument says whether a string is open. -/
def squeezeFrom : Bool → Text → Text
  | _, [] => []
  | true, '\\' :: c :: rest => '\\' :: c :: squeezeFrom true rest
  | true, c :: rest => c :: squeezeFrom (c != '\x22') rest
  | false, c :: rest =>
    if Text.isBlank c then squeezeFrom false rest
    else c :: squeezeFrom (c == '\x22') rest

/-- JSON text without the white space outside of its strings. -/
def squeeze (s : Text) : Text := squeezeFrom false s

/-- A text without such white space is another, whatever follows. -/
def SqueezesTo (s t : Text) : Prop :=
  ∀ rest, squeeze (s ++ rest) = t ++ squeeze rest

theorem SqueezesTo.eq (h : SqueezesTo s t) : squeeze s = t := by
  have hnil := h []
  rw [List.append_nil] at hnil
  rw [hnil]
  exact List.append_nil t

theorem SqueezesTo.append (hs : SqueezesTo s t) (hu : SqueezesTo u w) :
    SqueezesTo (s ++ u) (t ++ w) := by
  intro rest
  rw [List.append_assoc, hs, hu, List.append_assoc]

/-- Whether a character is neither white space nor a quote. -/
def isSolid (c : Char) : Bool := !Text.isBlank c && c != '\x22'

/-- What consists of such characters stays. -/
theorem squeezesTo_of_isSolid (hs : ∀ c ∈ s, isSolid c = true) :
    SqueezesTo s s := by
  intro rest
  unfold squeeze
  induction s with
  | nil => rfl
  | cons c s ih =>
      obtain ⟨hc, hs⟩ := List.forall_mem_cons.mp hs
      simp only [isSolid, Bool.and_eq_true, Bool.not_eq_true', bne_iff_ne]
        at hc
      rw [List.cons_append, squeezeFrom, hc.1, beq_false_of_ne hc.2,
        if_neg Bool.false_ne_true, ih hs]
      rfl

theorem squeezesTo_of_blank (hs : ∀ c ∈ s, Text.isBlank c = true) :
    SqueezesTo s [] := by
  intro rest
  unfold squeeze
  induction s with
  | nil => rfl
  | cons c s ih =>
      obtain ⟨hblank, hs⟩ := List.forall_mem_cons.mp hs
      rw [List.cons_append, squeezeFrom, if_pos hblank, ih hs]

/-- What stands for itself in a string stays. -/
theorem squeezeFrom_isPlain (hs : ∀ c ∈ s, isPlain c = true) :
    squeezeFrom true (s ++ rest) = s ++ squeezeFrom true rest := by
  induction s with
  | nil => rfl
  | cons c s ih =>
      obtain ⟨hc, hs⟩ := List.forall_mem_cons.mp hs
      simp only [isPlain, Bool.and_eq_true, bne_iff_ne] at hc
      obtain ⟨⟨hquote, hbackslash⟩, -⟩ := hc
      rw [List.cons_append, squeezeFrom.eq_3 _ _ fun _ _ h =>
        absurd h hbackslash, bne_iff_ne.mpr hquote, ih hs]
      rfl

/-- A string stays up to the quote at its end. -/
theorem squeezeFrom_escaped (d rest : Text) :
    squeezeFrom true (escaped d ++ '\x22' :: rest)
      = escaped d ++ '\x22' :: squeeze rest := by
  induction d with
  | nil => rfl
  | cons c d ih =>
      rw [escaped_cons, List.append_assoc, List.append_assoc, ← ih]
      by_cases hc : isPlain c = true
      · rw [escapedChar_of_isPlain hc]
        exact squeezeFrom_isPlain (List.forall_mem_singleton.mpr hc)
      · obtain ⟨a, u, hu, -, hdigits⟩ :=
          exists_escape (Bool.eq_false_iff.mpr hc)
        have hplain : escapeDigits.all isPlain = true := by decide
        rw [hu, List.cons_append, List.cons_append, squeezeFrom,
          squeezeFrom_isPlain fun b hb =>
            List.all_eq_true.mp hplain b (hdigits b hb)]
        rfl

theorem squeezesTo_writeText (d : Text) :
    SqueezesTo (writeText false d) (writeText false d) := by
  intro rest
  rw [writeText_eq, writeText_eq]
  show '\x22' :: squeezeFrom true _ = _
  rw [squeezeFrom_escaped]

/-- The white space between the parts is all there is. -/
theorem layouts_squeezesTo : Layouts .pretty .compact SqueezesTo where
  nil := fun _ => rfl
  append := SqueezesTo.append
  scalar hs := by
    have hsolid : scalarCharacters.all isSolid = true := by decide
    exact squeezesTo_of_isSolid fun c hc =>
      List.all_eq_true.mp hsolid c (hs c hc)
  quoted := squeezesTo_writeText
  mark hc := by
    have hsolid : marks.all isSolid = true := by decide
    exact squeezesTo_of_isSolid
      (List.forall_mem_singleton.mpr (List.all_eq_true.mp hsolid _ hc))
  colon := fun _ => rfl
  margin depth depth' := by
    refine squeezesTo_of_blank fun c hc => ?_
    have hspace := isSpace_margin .pretty depth c hc
    simp only [isSpace, Bool.or_eq_true, beq_iff_eq] at hspace
    rcases hspace with ((rfl | rfl) | rfl) | rfl
    all_goals rfl

-- =============================================================== layouts

/-- Where no plain form may stand in, none is refused. -/
theorem write_ne_refused (hstrict : style.lenient = false) (v : Value)
    (e : Objection) : write style v ≠ .error (.refused e) := by
  intro h
  have hmeets : Meets style (write style v) (offence? v) :=
    meets_writeAt hstrict 0 v
  rw [h] at hmeets
  generalize he : WriteError.refused e = error at hmeets
  generalize offence? v = o at hmeets
  cases hmeets with
  | ended o => cases o <;> cases he

/-- A value without an offence has text in both layouts, the same but for
white space; one with an offence has none in either. -/
theorem write_layouts (v : Value) :
    (offence? v = none → ∃ s t, write .pretty v = .ok s
      ∧ write .compact v = .ok t ∧ squeeze s = t)
    ∧ ∀ o, offence? v = some o →
      write .pretty v = .error (o.error .pretty)
        ∧ write .compact v = .error (o.error .compact) := by
  have hpretty : Meets .pretty (write .pretty v) (offence? v) :=
    meets_writeAt rfl 0 v
  have hcompact : Meets .compact (write .compact v) (offence? v) :=
    meets_writeAt rfl 0 v
  refine ⟨fun hnone => ?_, fun o ho => ?_⟩
  · rw [hnone] at hpretty hcompact
    obtain ⟨s, hs⟩ := hpretty.exists_eq_ok
    obtain ⟨t, ht⟩ := hcompact.exists_eq_ok
    exact ⟨s, t, hs, ht, (layouts_squeezesTo.write hs ht).eq⟩
  · rw [ho] at hpretty hcompact
    exact ⟨hpretty.eq_error, hcompact.eq_error⟩

end AuditTrail.Json
