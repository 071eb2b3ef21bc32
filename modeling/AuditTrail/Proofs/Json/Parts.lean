/-
What JSON text is put together from.

In every layout JSON text consists of quoted texts, of scalars, and of what
stands around them in containers. Scalars are made of few characters
(`scalarCharacters`), whatever number they show. A relation between what two
writers write therefore holds of the texts of any value if it holds of these
parts (`Layouts`) and of what containers put together from related texts
(`Encloses`). The induction goes along with the writer, once for all such
relations; with one writer on both sides it says something of each text by
itself.
-/
import AuditTrail.Proofs.Json.Decimal
import AuditTrail.Proofs.Json.ReadBack
import AuditTrail.Proofs.Results

namespace AuditTrail.Json

open Redaction (escapeDigits escapeLetters escapedChar_of_isPlain exists_escape
  isPlain)

variable {s t u v : Text} {n : Int} {σ τ : Style} {R : Text → Text → Prop}

-- =============================================================== scalars

/-- The characters that numbers and words are made of. -/
def scalarCharacters : Text := words.flatten ++ "+-.0123456789eE".toList

/-- A text that consists of such characters. -/
def IsScalar (s : Text) : Prop := ∀ c ∈ s, c ∈ scalarCharacters

instance (s : Text) : Decidable (IsScalar s) := List.decidableBAll _ s

theorem IsScalar.append (hs : IsScalar s) (ht : IsScalar t) :
    IsScalar (s ++ t) := List.forall_mem_append.mpr ⟨hs, ht⟩

theorem isScalar_of_isDigit (hs : ∀ c ∈ s, c.isDigit = true) :
    IsScalar s := by
  have hall : IsScalar Decimal.characters := by decide
  exact fun c hc => hall c (Decimal.mem_characters_of_isDigit (hs c hc))

theorem isScalar_ofNatPadded (width n : Nat) :
    IsScalar (Text.ofNatPadded width n) :=
  isScalar_of_isDigit fun _ => isDigit_of_mem_ofNatPadded

theorem isScalar_ofInt (n : Int) : IsScalar (Text.ofInt n) := by
  have hdigits : IsScalar (Text.ofNat n.natAbs) :=
    isScalar_of_isDigit fun _ => isDigit_of_mem_ofNat
  unfold Text.ofInt
  split
  · exact IsScalar.append (s := ['-']) (by decide) hdigits
  · exact hdigits

/-- Digits are written with a point and an exponent, and no more. -/
theorem isScalar_toText {d : Double.Digits} (hd : IsScalar d.digits) :
    IsScalar d.toText := by
  obtain ⟨digits, point⟩ := d
  change IsScalar digits at hd
  have hzeros (k : Nat) : IsScalar (List.replicate k '0') :=
    isScalar_of_isDigit fun _ => isDigit_of_mem_replicate
  have hpoint : IsScalar ['.'] := by decide
  unfold Double.Digits.toText
  dsimp only
  split
  case isTrue =>
    split
    · exact IsScalar.append (s := ['0', '.']) (by decide)
        ((hzeros _).append hd)
    split
    · exact IsScalar.append (fun c hc => hd c (List.mem_of_mem_take hc))
        (hpoint.append fun c hc => hd c (List.mem_of_mem_drop hc))
    · exact (hd.append (hzeros _)).append (by decide)
  case isFalse =>
    refine IsScalar.append ?_ (IsScalar.append (s := ['e']) (by decide)
      (IsScalar.append (s := [_]) ?_ (isScalar_ofNatPadded _ _)))
    · match digits with
      | [] => exact hd
      | [a] => exact hd
      | a :: b :: rest =>
          obtain ⟨ha, hrest⟩ := List.forall_mem_cons.mp hd
          exact List.forall_mem_cons.mpr ⟨ha, hpoint.append hrest⟩
    · split <;> decide

theorem isScalar_writeDouble (x : Double) : IsScalar (writeDouble x) := by
  cases x with
  | nan => decide
  | infinite negative => cases negative <;> decide
  | finite negative m e =>
      show IsScalar (Double.toText (.finite negative m e))
      unfold Double.toText
      have hbody : IsScalar (if m = 0 then "0.0".toList
          else (Double.shortest m e).toText) := by
        split
        · decide
        · exact isScalar_toText
            (isScalar_of_isDigit (digits_shortest m e).1)
      dsimp only
      split
      · exact IsScalar.append (s := ['-']) (by decide) hbody
      · exact hbody

theorem isScalar_of_writeInt (h : writeInt n = .ok s) : IsScalar s := by
  unfold writeInt at h
  split at h
  case isTrue => cases h
  case isFalse =>
    cases h
    exact isScalar_ofInt n

theorem isScalar_bool (b : Bool) :
    IsScalar (if b then "true".toList else "false".toList) := by
  cases b <;> decide

-- =============================================================== layouts

/-- The characters around and between the items of containers. -/
def marks : Text := ['[', ']', '\x7b', '\x7d', ',']

/-- A relation between the texts of two layouts that holds of what is put
together from related texts. -/
structure Encloses (σ τ : Style) (R : Text → Text → Prop) : Prop where
  nil : R [] []
  append {s t u v : Text} (hs : R s t) (hu : R u v) : R (s ++ u) (t ++ v)
  mark {c : Char} (hc : c ∈ marks) : R [c] [c]
  margin (depth depth' : Nat) : R (margin σ depth) (margin τ depth')

namespace Encloses

theorem joinWith (h : Encloses σ τ R) {pad pad' : Text} {ss ts : List Text}
    (hpad : R pad pad') (hss : List.Forall₂ R ss ts) :
    R (Text.joinWith (',' :: pad) ss) (Text.joinWith (',' :: pad') ts) := by
  have hcomma : R (',' :: pad) (',' :: pad') :=
    h.append (h.mark (by decide)) hpad
  induction hss with
  | nil => exact h.nil
  | cons hst hrest ih =>
      cases hrest with
      | nil => exact hst
      | cons _ _ => exact h.append (h.append hst hcomma) ih

theorem enclose (h : Encloses σ τ R) (depth depth' : Nat)
    {opening closing : Char} {ss ts : List Text} (hopening : opening ∈ marks)
    (hclosing : closing ∈ marks) (hss : List.Forall₂ R ss ts) :
    R (enclose σ depth opening closing ss)
      (enclose τ depth' opening closing ts) := by
  have hitems := h.joinWith (h.margin (depth + 1) (depth' + 1)) hss
  cases hss with
  | nil => exact h.append (h.mark hopening) (h.mark hclosing)
  | cons _ _ =>
      rw [enclose_cons, enclose_cons]
      exact h.append (h.mark hopening) (h.append (h.margin _ _)
        (h.append hitems (h.append (h.margin _ _) (h.mark hclosing))))

end Encloses

/-- A relation that holds of the texts of a value if it holds of those of its
parts. -/
structure Layouts (σ τ : Style) (R : Text → Text → Prop) : Prop
    extends Encloses σ τ R where
  scalar {s : Text} (hs : IsScalar s) : R s s
  quoted (s : Text) : R (writeText σ.ascii s) (writeText τ.ascii s)
  colon : R (colon σ) (colon τ)

namespace Layouts

/-- What stands in for a value without a JSON form is quoted. -/
theorem writeOther (h : Layouts σ τ R) {v : Value}
    (hs : writeOther σ v = .ok s) (ht : writeOther τ v = .ok t) : R s t := by
  unfold Json.writeOther at hs ht
  split at hs
  · cases hs
  split at ht
  · cases ht
  cases hsilence : v.plainSilence? with
  | some =>
      rw [hsilence] at hs
      cases hs
  | none =>
      rw [hsilence] at hs ht
      cases hs
      cases ht
      exact h.quoted _

/-- A key has the same text in every layout. -/
theorem keyText_eq {k : Value} (hs : keyText σ k = .ok s)
    (ht : keyText τ k = .ok t) : s = t := by
  cases k with
  | int n =>
      have hint : writeInt n = .ok s := hs
      have hint' : writeInt n = .ok t := ht
      exact Except.ok.inj (hint.symm.trans hint')
  | null
  | bool
  | float
  | text
  | term => exact Except.ok.inj (hs.symm.trans ht)
  | _ => cases hs

mutual

theorem writeAt (h : Layouts σ τ R) (depth depth' : Nat) (v : Value)
    {s t : Text} (hs : writeAt σ depth v = .ok s)
    (ht : writeAt τ depth' v = .ok t) : R s t := by
  cases v with
  | null =>
      cases hs
      cases ht
      exact h.scalar (by decide)
  | bool b =>
      cases hs
      cases ht
      exact h.scalar (isScalar_bool b)
  | int n =>
      have hint : writeInt n = .ok s := hs
      have hint' : writeInt n = .ok t := ht
      cases hint.symm.trans hint'
      exact h.scalar (isScalar_of_writeInt hint)
  | float x =>
      cases hs
      cases ht
      exact h.scalar (isScalar_writeDouble x)
  | text d =>
      cases hs
      cases ht
      exact h.quoted d
  | term m =>
      cases hs
      cases ht
      exact h.quoted m.wire
  | list items
  | tuple items =>
      obtain ⟨ss, hss, rfl⟩ := exists_of_map_eq_ok hs
      obtain ⟨ts, hts, rfl⟩ := exists_of_map_eq_ok ht
      exact h.toEncloses.enclose depth depth' (by decide) (by decide)
        (writeItems h _ _ items hss hts)
  | map entries =>
      obtain ⟨ss, hss, rfl⟩ := exists_of_map_eq_ok hs
      obtain ⟨ts, hts, rfl⟩ := exists_of_map_eq_ok ht
      exact h.toEncloses.enclose depth depth' (by decide) (by decide)
        (writeEntries h _ _ entries hss hts)
  | cycle => cases hs
  | bytes
  | set
  | date
  | dateTime
  | foreign
  | agent => exact h.writeOther hs ht
termination_by structural v

theorem writeItems (h : Layouts σ τ R) (depth depth' : Nat)
    (items : List Value) {ss ts : List Text}
    (hs : writeItems σ depth items = .ok ss)
    (ht : writeItems τ depth' items = .ok ts) : List.Forall₂ R ss ts := by
  cases items with
  | nil =>
      cases hs
      cases ht
      exact .nil
  | cons v rest =>
      obtain ⟨s, hitem, hs⟩ := exists_of_bind_eq_ok hs
      obtain ⟨ss, hitems, hs⟩ := exists_of_bind_eq_ok hs
      obtain ⟨t, hitem', ht⟩ := exists_of_bind_eq_ok ht
      obtain ⟨ts, hitems', ht⟩ := exists_of_bind_eq_ok ht
      cases hs
      cases ht
      exact .cons (writeAt h depth depth' v hitem hitem')
        (writeItems h depth depth' rest hitems hitems')
termination_by structural items

theorem writeEntries (h : Layouts σ τ R) (depth depth' : Nat)
    (entries : List (Value × Value)) {ss ts : List Text}
    (hs : writeEntries σ depth entries = .ok ss)
    (ht : writeEntries τ depth' entries = .ok ts) :
    List.Forall₂ R ss ts := by
  cases entries with
  | nil =>
      cases hs
      cases ht
      exact .nil
  | cons e rest =>
      obtain ⟨k, v⟩ := e
      obtain ⟨key, hkey, hs⟩ := exists_of_bind_eq_ok hs
      obtain ⟨s, hitem, hs⟩ := exists_of_bind_eq_ok hs
      obtain ⟨ss, hitems, hs⟩ := exists_of_bind_eq_ok hs
      obtain ⟨key', hkey', ht⟩ := exists_of_bind_eq_ok ht
      obtain ⟨t, hitem', ht⟩ := exists_of_bind_eq_ok ht
      obtain ⟨ts, hitems', ht⟩ := exists_of_bind_eq_ok ht
      cases keyText_eq hkey hkey'
      cases hs
      cases ht
      exact .cons (h.append (h.append (h.quoted key) h.colon)
        (writeAt h depth depth' v hitem hitem'))
        (writeEntries h depth depth' rest hitems hitems')
termination_by structural entries

end

theorem write (h : Layouts σ τ R) {v : Value} (hs : write σ v = .ok s)
    (ht : write τ v = .ok t) : R s t := h.writeAt 0 0 v hs ht

end Layouts

-- ==================================================== control characters

/-- A text without control characters. -/
def NoControl (s : Text) : Prop := ∀ c ∈ s, 0x20 ≤ c.toNat

instance (s : Text) : Decidable (NoControl s) := List.decidableBAll _ s

/-- Control characters are escaped in quoted texts. -/
theorem noControl_writeText (s : Text) : NoControl (writeText false s) := by
  have hquote : NoControl ['\x22'] := by decide
  refine List.forall_mem_append.mpr
    ⟨List.forall_mem_cons.mpr ⟨by decide, ?_⟩, hquote⟩
  rintro b hb
  obtain ⟨c, -, hb⟩ := List.mem_flatMap.mp hb
  by_cases hc : isPlain c = true
  · rw [escapedChar_of_isPlain hc, List.mem_singleton] at hb
    subst hb
    simp only [isPlain, Bool.and_eq_true, decide_eq_true_eq] at hc
    exact hc.2
  · have hletters : NoControl ('\\' :: escapeLetters) := by decide
    have hdigits : NoControl escapeDigits := by decide
    obtain ⟨a, u, hu, ha, hall⟩ := exists_escape (Bool.eq_false_iff.mpr hc)
    rw [hu, List.mem_cons, List.mem_cons] at hb
    rcases hb with rfl | rfl | hb
    · exact hletters _ List.mem_cons_self
    · exact hletters _ (List.mem_cons_of_mem _ ha)
    · exact hdigits _ (hall _ hb)

/-- JSON text on one line holds no control character, and so no line feed. -/
theorem noControl_write {v : Value} (hflat : σ.indented = false)
    (hplain : σ.ascii = false) (hs : write σ v = .ok s) : NoControl s := by
  have hscalar : NoControl scalarCharacters := by decide
  have hmarks : NoControl marks := by decide
  have hlayouts : Layouts σ σ fun s _ => NoControl s :=
    { nil := by decide
      append := fun hs hu => List.forall_mem_append.mpr ⟨hs, hu⟩
      scalar := fun hs c hc => hscalar c (hs c hc)
      quoted := by
        rw [hplain]
        exact noControl_writeText
      mark := fun hc => List.forall_mem_singleton.mpr (hmarks _ hc)
      colon := by
        unfold colon
        rw [hflat]
        decide
      margin := fun _ _ => by
        unfold margin
        rw [hflat]
        exact fun _ hc => absurd hc List.not_mem_nil }
  exact hlayouts.write hs hs

end AuditTrail.Json
