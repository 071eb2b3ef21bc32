/-
JSON text that was written is read back.

`ReadsAs` is the shape of the argument: a text is read as a value of some
depth, whatever follows that does not continue it, if there are steps and
levels enough. Strings, numbers and words are such texts; from texts of
items and members come those of arrays and objects, in every layout, since
the reader skips the margins (`enclose_cons`). So whatever is `Readable` is
read back as what it looks like in writing (`read_write`): members of the
vocabulary become texts, and nothing else changes. One line is then the
canonical form of all layouts (`toJson_write`).
-/
import AuditTrail.Content.Conversion
import AuditTrail.Proofs.Json.Decimal
import AuditTrail.Proofs.Redaction.Quoted
import AuditTrail.Proofs.Text.Pieces
import AuditTrail.Proofs.Value.Texts

namespace AuditTrail.Json

open Redaction (escaped escaped_cons isPlain escapedChar_of_isPlain writeText_eq)

variable {opened acc s rest : Text} {c : Char}

-- ============================================================== strings

/-- A character that stands for itself is read as itself. -/
theorem readString_of_isPlain (hc : isPlain c = true) :
    readString opened none acc (c :: rest)
      = readString opened none (c :: acc) rest := by
  have hparts : (c ≠ '\x22' ∧ c ≠ '\\') ∧ 0x20 ≤ c.toNat := by
    simpa [isPlain] using hc
  obtain ⟨⟨hquote, hbackslash⟩, hlow⟩ := hparts
  rw [readString]
  · rw [if_neg (Nat.not_lt.mpr hlow)]
    rfl
  all_goals simp_all

/-- A control character is read from its number. -/
theorem readString_unicodeEscape (hc : c.toNat < 0x20) (hrest : rest ≠ []) :
    readString opened none acc (unicodeEscape c.toNat ++ rest)
      = readString opened none (c :: acc) rest := by
  -- far below the halves of pairs, so none is left pending
  have hnumber : ∀ n < 0x20, Text.hexNumber? (Text.hexPadded 4 n) = some n
      ∧ isHighHalf n = false ∧ isLowHalf n = false := by decide
  obtain ⟨hnumber, hhigh, hlow⟩ := hnumber _ hc
  have hchar : unitChar c.toNat = c := by
    rw [unitChar, hhigh, hlow]
    exact Char.ofNat_toNat c
  have hpush : pushUnit none acc c.toNat = (none, c :: acc) := by
    rw [pushUnit, hhigh, hchar]
    rfl
  obtain ⟨d, rest, rfl⟩ := List.exists_cons_of_ne_nil hrest
  calc readString opened none acc (unicodeEscape c.toNat ++ d :: rest)
      = readString opened (pushUnit none acc c.toNat).1
          (pushUnit none acc c.toNat).2 (d :: rest) :=
        readString.eq_4 _ _ _ _ _ _ _ _ _ _ hnumber
    _ = readString opened none (c :: acc) (d :: rest) := by rw [hpush]

/-- A character is read back from the way it is written. -/
theorem readString_escapedChar (hrest : rest ≠ []) :
    readString opened none acc (escapedChar false c ++ rest)
      = readString opened none (c :: acc) rest := by
  by_cases hplain : isPlain c = true
  · rw [escapedChar_of_isPlain hplain]
    exact readString_of_isPlain hplain
  by_cases hnamed : c ∈ ['\x22', '\\', '\n', '\r', '\t', '\x0C', '\x08']
  · simp only [List.mem_cons, List.not_mem_nil, or_false] at hnamed
    rcases hnamed with rfl | rfl | rfl | rfl | rfl | rfl | rfl
    all_goals rfl
  · simp only [List.mem_cons, List.not_mem_nil, or_false, not_or] at hnamed
    obtain ⟨h1, h2, h3, h4, h5, h6, h7⟩ := hnamed
    have hlow : c.toNat < 0x20 := by
      simpa [isPlain, h1, h2] using hplain
    unfold escapedChar
    rw [if_neg h1, if_neg h2, if_neg h3, if_neg h4, if_neg h5, if_neg h6,
      if_neg h7, if_pos hlow]
    exact readString_unicodeEscape hlow hrest

/-- A string is read back up to its closing quote. -/
theorem readString_escaped :
    readString opened none acc (escaped s ++ '\x22' :: rest)
      = .ok (acc.reverse ++ s, rest) := by
  induction s generalizing acc with
  | nil =>
      rw [List.append_nil]
      rfl
  | cons c s ih =>
      rw [escaped_cons, List.append_assoc,
        readString_escapedChar (by simp), ih, List.reverse_cons,
        List.append_assoc]
      rfl

-- =============================================================== layout

theorem skipSpace_append {t : Text} (hs : ∀ c ∈ s, isSpace c = true) :
    skipSpace (s ++ t) = skipSpace t :=
  List.dropWhile_append_of_pos hs

theorem skipSpace_cons {t : Text} (hc : isSpace c = false) :
    skipSpace (c :: t) = c :: t :=
  List.dropWhile_cons_of_neg (by rw [hc]; exact Bool.false_ne_true)

/-- What stands before an item or a closing bracket. -/
def margin (style : Style) (depth : Nat) : Text :=
  if style.indented then newline depth else []

theorem isSpace_margin (style : Style) (depth : Nat) :
    ∀ c ∈ margin style depth, isSpace c = true := by
  unfold margin newline
  split
  case isFalse => exact fun c hc => absurd hc List.not_mem_nil
  case isTrue =>
    refine List.forall_mem_cons.mpr ⟨rfl, fun c hc => ?_⟩
    rw [List.eq_of_mem_replicate hc]
    rfl

theorem follows_margin {style : Style} {depth : Nat}
    (hrest : Follows rest) : Follows (margin style depth ++ rest) := by
  unfold margin
  split
  case isFalse => exact hrest
  case isTrue => simp [Follows, newline]

/-- Brackets around items, the margins made explicit. -/
theorem enclose_cons (style : Style) (depth : Nat) (opening closing : Char)
    (out : Text) (outs : List Text) :
    enclose style depth opening closing (out :: outs)
      = opening :: (margin style (depth + 1)
        ++ (Text.joinWith (',' :: margin style (depth + 1)) (out :: outs)
          ++ (margin style depth ++ [closing]))) := by
  obtain ⟨indented, ascii, lenient⟩ := style
  cases indented with
  | true => simp [enclose, margin]
  | false => simp [enclose, margin]

-- =============================================================== values

/-- A text that is read as a value of some depth, whatever follows. -/
structure ReadsAs (levels : Nat) (v : Value) (out : Text) : Prop where
  begins : ∃ c t, out = c :: t ∧ isSpace c = false ∧ c ∉ [']', '\uFEFF']
  reads : ∀ fuel l rest, 2 * out.length ≤ fuel → levels ≤ l → Follows rest →
    readValue fuel l (out ++ rest) = .ok (v, rest)

variable {levels l fuel : Nat} {v : Value} {out : Text} {style : Style}

theorem ReadsAs.skipSpace_append (h : ReadsAs levels v out) (t : Text) :
    skipSpace (out ++ t) = out ++ t := by
  obtain ⟨c, out', rfl, hc, -⟩ := h.begins
  exact skipSpace_cons hc

/-- A value that is no string and no container is read as a scalar. -/
theorem readsAs_of_readScalar (hout : ∃ c t, out = c :: t ∧ isSpace c = false
      ∧ c ∉ [']', '\uFEFF', '\x22', '[', '\x7b'])
    (hread : ∀ rest, Follows rest → readScalar (out ++ rest) = .ok (v, rest)) :
    ReadsAs levels v out := by
  obtain ⟨c, t, rfl, hspace, hc⟩ := hout
  simp only [List.mem_cons, List.not_mem_nil, or_false, not_or] at hc
  obtain ⟨hclosing, hmark, hquote, hbracket, hbrace⟩ := hc
  refine ⟨⟨c, t, rfl, hspace, by simp [hclosing, hmark]⟩,
    fun fuel l rest hfuel _ hrest => ?_⟩
  rw [List.length_cons] at hfuel
  obtain ⟨fuel, rfl⟩ := Nat.exists_eq_add_one_of_ne_zero
    (show fuel ≠ 0 by omega)
  rw [← hread rest hrest, List.cons_append, readValue]
  all_goals simp_all

theorem readsAs_writeText (s : Text) :
    ReadsAs levels (.text s) (writeText false s) := by
  refine ⟨⟨_, _, rfl, rfl, by decide⟩, fun fuel l rest hfuel _ _ => ?_⟩
  rw [writeText, List.cons_append, List.length_cons] at hfuel
  obtain ⟨fuel, rfl⟩ := Nat.exists_eq_add_one_of_ne_zero
    (show fuel ≠ 0 by omega)
  rw [writeText_eq, readValue, readString_escaped]
  rfl

-- ============================================================ containers

theorem joinWith_cons_cons (pad s t : Text) (ss : List Text) :
    Text.joinWith (',' :: pad) (s :: t :: ss)
      = s ++ ',' :: (pad ++ Text.joinWith (',' :: pad) (t :: ss)) :=
  List.append_assoc s (',' :: pad) _

section Steps

variable {items : List Value} {entries : Value.Entries} {t u : Text}

theorem readItems_last (hv : readValue fuel l s = .ok (v, t))
    (ht : skipSpace t = ']' :: rest) :
    readItems (fuel + 1) l items s = .ok (.list (items.reverse ++ [v]), rest) := by
  rw [readItems, hv]
  dsimp only
  rw [ht, List.reverse_cons]
  rfl

theorem readItems_next (hv : readValue fuel l s = .ok (v, t))
    (ht : skipSpace t = ',' :: u) :
    readItems (fuel + 1) l items s
      = readItems fuel l (v :: items) (skipSpace u) := by
  rw [readItems, hv]
  dsimp only
  rw [ht]
  rfl

theorem readMembers_last {name : Text}
    (hv : readValue fuel l (skipSpace s) = .ok (v, t))
    (ht : skipSpace t = '\x7d' :: rest) :
    readMembers (fuel + 1) l entries (writeText false name ++ ':' :: s)
      = .ok (.map (Value.put false entries (.text name) v), rest) := by
  rw [writeText_eq, readMembers, readString_escaped]
  dsimp only
  rw [skipSpace_cons rfl]
  simp only [hv, ht, List.reverse_nil, List.nil_append]

theorem readMembers_next {name : Text}
    (hv : readValue fuel l (skipSpace s) = .ok (v, t))
    (ht : skipSpace t = ',' :: u) :
    readMembers (fuel + 1) l entries (writeText false name ++ ':' :: s)
      = readMembers fuel l (Value.put false entries (.text name) v)
        (skipSpace u) := by
  rw [writeText_eq, readMembers, readString_escaped]
  dsimp only
  rw [skipSpace_cons rfl]
  simp only [hv, ht, List.reverse_nil, List.nil_append]

end Steps

/-- A member of a map as text: its name in quotes, and its value. -/
structure MemberReadsAs (levels : Nat) (e : Text × Value) (out : Text) :
    Prop where
  reads : ∃ blank item, out = writeText false e.1 ++ ':' :: (blank ++ item)
    ∧ (∀ c ∈ blank, isSpace c = true) ∧ ReadsAs levels e.2 item

/-- A name and a value as an entry of a map. -/
def toEntry (e : Text × Value) : Value × Value := (.text e.1, e.2)

/-- A name that is new comes last. -/
theorem put_toEntry {done : List (Text × Value)} {name : Text}
    (hname : name ∉ done.map (·.1)) :
    Value.put false (done.map toEntry) (.text name) v
      = (done ++ [(name, v)]).map toEntry := by
  induction done with
  | nil => rfl
  | cons e done ih =>
      rw [List.map_cons, List.mem_cons, not_or] at hname
      have hsame : Value.same false (toEntry e).1 (.text name) = false := by
        show (some name == some e.1) = false
        exact beq_false_of_ne fun h => hname.1 (Option.some.inj h)
      rw [List.map_cons, Value.put, hsame, ih hname.2]
      rfl

section Containers

variable {pad tail : Text} {closing : Char}
  (hpad : ∀ c ∈ pad, isSpace c = true) (htail : ∀ c ∈ tail, isSpace c = true)
  (hrest : Follows (tail ++ closing :: rest)) (hl : levels ≤ l)

include hpad htail hrest hl

theorem readItems_joinWith {vs acc : List Value} {outs : List Text}
    (hclosing : closing = ']') (h : List.Forall₂ (ReadsAs levels) vs outs)
    (hne : outs ≠ [])
    (hfuel : 2 * ((Text.joinWith (',' :: pad) outs).length + 1) ≤ fuel) :
    readItems fuel l acc
        (Text.joinWith (',' :: pad) outs ++ (tail ++ closing :: rest))
      = .ok (.list (acc.reverse ++ vs), rest) := by
  subst hclosing
  -- on the items with their texts; the steps bound the text that is left
  induction h generalizing fuel acc with
  | nil => exact absurd rfl hne
  | @cons v out vs outs hv hvs ih =>
      obtain ⟨fuel, rfl⟩ := Nat.exists_eq_add_one_of_ne_zero
        (show fuel ≠ 0 by omega)
      cases hvs with
      | nil =>
          rw [Text.joinWith] at hfuel ⊢
          refine readItems_last (hv.reads fuel l _ (by omega) hl hrest) ?_
          rw [skipSpace_append htail, skipSpace_cons rfl]
      | @cons w out' vs outs hw hvs =>
          rw [joinWith_cons_cons] at hfuel ⊢
          simp only [List.length_append, List.length_cons] at hfuel
          rw [List.append_assoc, List.cons_append, List.append_assoc,
            readItems_next
              (hv.reads fuel l _ (by omega) hl (by simp [Follows]))
              (skipSpace_cons rfl)]
          obtain ⟨t, ht⟩ :=
            Text.exists_joinWith_eq_append (',' :: pad) out' outs
          have hskip : skipSpace (pad ++ (Text.joinWith (',' :: pad)
              (out' :: outs) ++ (tail ++ ']' :: rest)))
              = Text.joinWith (',' :: pad) (out' :: outs)
                ++ (tail ++ ']' :: rest) := by
            rw [skipSpace_append hpad, ht, List.append_assoc,
              hw.skipSpace_append]
          rw [hskip, ih (List.cons_ne_nil _ _) (by omega), List.reverse_cons,
            List.append_assoc]
          rfl

/-- Members are read one after the other, those with new names. -/
theorem readMembers_joinWith {es done : List (Text × Value)}
    {outs : List Text} (hclosing : closing = '\x7d')
    (h : List.Forall₂ (MemberReadsAs levels) es outs) (hne : outs ≠ [])
    (hnames : ((done ++ es).map (·.1)).Nodup)
    (hfuel : 2 * ((Text.joinWith (',' :: pad) outs).length + 1) ≤ fuel) :
    readMembers fuel l (done.map toEntry)
        (Text.joinWith (',' :: pad) outs ++ (tail ++ closing :: rest))
      = .ok (.map ((done ++ es).map toEntry), rest) := by
  subst hclosing
  -- as for items; the names of the members done so far are kept apart
  induction h generalizing fuel done with
  | nil => exact absurd rfl hne
  | @cons e out es outs he hes ih =>
      obtain ⟨fuel, rfl⟩ := Nat.exists_eq_add_one_of_ne_zero
        (show fuel ≠ 0 by omega)
      obtain ⟨name, v⟩ := e
      obtain ⟨blank, item, rfl, hblank, hv⟩ := he.reads
      have hnew : name ∉ done.map (·.1) := by
        rw [List.map_append, List.nodup_append] at hnames
        exact fun hmem => hnames.2.2 name hmem name List.mem_cons_self rfl
      have hread : ∀ t, Follows t → 2 * item.length ≤ fuel →
          readValue fuel l (skipSpace (blank ++ (item ++ t))) = .ok (v, t) := by
        intro t ht hfuel
        rw [skipSpace_append hblank, hv.skipSpace_append]
        exact hv.reads fuel l t hfuel hl ht
      cases hes with
      | nil =>
          rw [Text.joinWith] at hfuel ⊢
          simp only [List.length_append, List.length_cons] at hfuel
          rw [List.append_assoc, List.cons_append, List.append_assoc,
            readMembers_last (hread _ hrest (by omega))
              ((skipSpace_append htail).trans (skipSpace_cons rfl)),
            put_toEntry hnew]
      | @cons d out' es outs hd hes =>
          rw [joinWith_cons_cons] at hfuel ⊢
          simp only [List.length_append, List.length_cons] at hfuel
          rw [List.append_assoc, List.append_assoc, List.cons_append,
            List.append_assoc, List.cons_append, List.append_assoc,
            readMembers_next (hread _ (by simp [Follows]) (by omega))
              (skipSpace_cons rfl),
            put_toEntry hnew]
          obtain ⟨t, ht⟩ :=
            Text.exists_joinWith_eq_append (',' :: pad) out' outs
          have hskip : skipSpace (pad ++ (Text.joinWith (',' :: pad)
              (out' :: outs) ++ (tail ++ '\x7d' :: rest)))
              = Text.joinWith (',' :: pad) (out' :: outs)
                ++ (tail ++ '\x7d' :: rest) := by
            obtain ⟨_, _, rfl, -⟩ := hd.reads
            rw [skipSpace_append hpad, ht]
            exact skipSpace_cons rfl
          rw [hskip, ih (List.cons_ne_nil _ _) (by simpa using hnames)
            (by omega), List.append_assoc]
          rfl

end Containers

theorem readValue_items {t : Text} (hs : skipSpace s = c :: t) (hc : c ≠ ']') :
    readValue (fuel + 1) (l + 1) ('[' :: s) = readItems fuel l [] (c :: t) := by
  rw [readValue, hs]
  split
  case h_1 heq => exact absurd (List.cons.inj heq).1 hc
  case h_2 => rfl

theorem readValue_members {t : Text} (hs : skipSpace s = c :: t)
    (hc : c ≠ '\x7d') :
    readValue (fuel + 1) (l + 1) ('\x7b' :: s)
      = readMembers fuel l [] (c :: t) := by
  rw [readValue, hs]
  split
  case h_1 heq => exact absurd (List.cons.inj heq).1 hc
  case h_2 => rfl

/-- A container takes one step and one level more than what stands in its
brackets. -/
theorem readsAs_of_brackets {opening : Char} {inside : Text}
    (hspace : isSpace opening = false)
    (hopening : opening ∉ [']', '\uFEFF'])
    (h : ∀ fuel l rest, 2 * inside.length + 1 ≤ fuel → levels ≤ l →
      Follows rest → readValue (fuel + 1) (l + 1) (opening :: (inside ++ rest))
        = .ok (v, rest)) :
    ReadsAs (levels + 1) v (opening :: inside) := by
  refine ⟨⟨opening, inside, rfl, hspace, hopening⟩,
    fun fuel l rest hfuel hl hrest => ?_⟩
  rw [List.length_cons] at hfuel
  obtain ⟨fuel, rfl⟩ := Nat.exists_eq_add_one_of_ne_zero
    (show fuel ≠ 0 by omega)
  obtain ⟨l, rfl⟩ := Nat.exists_eq_add_one_of_ne_zero (show l ≠ 0 by omega)
  exact h fuel l rest (by omega) (Nat.le_of_succ_le_succ hl) hrest

/-- An array is read with its items, one level deeper. -/
theorem readsAs_list {vs : List Value} {outs : List Text} (depth : Nat)
    (h : List.Forall₂ (ReadsAs levels) vs outs) :
    ReadsAs (levels + 1) (.list vs) (enclose style depth '[' ']' outs) := by
  cases h with
  | nil => exact readsAs_of_brackets rfl (by decide) fun _ _ _ _ _ _ => rfl
  | @cons v out vs outs hv hvs =>
      rw [enclose_cons]
      refine readsAs_of_brackets rfl (by decide)
        fun fuel l rest hfuel hl hrest => ?_
      simp only [List.length_append, List.length_cons] at hfuel
      obtain ⟨t, ht⟩ :=
        Text.exists_joinWith_eq_append (',' :: margin style (depth + 1)) out outs
      -- the first item shows that the array does not end at once
      obtain ⟨c, out', hout, hspace, hc⟩ := hv.begins
      have hclosing : Follows (margin style depth ++ ']' :: rest) :=
        follows_margin (by simp [Follows])
      have hitems : readItems fuel l [] _ = _ := readItems_joinWith
        (isSpace_margin style (depth + 1)) (isSpace_margin style depth)
        hclosing hl rfl (.cons hv hvs) (List.cons_ne_nil _ _) (by omega)
      rw [List.append_assoc, List.append_assoc, List.append_assoc]
      rw [ht, hout] at hitems ⊢
      rw [List.mem_cons, not_or] at hc
      exact (readValue_items ((skipSpace_append (isSpace_margin _ _)).trans
        (skipSpace_cons hspace)) hc.1).trans hitems

/-- An object is read with its members, one level deeper. -/
theorem readsAs_map {es : List (Text × Value)} {outs : List Text}
    (depth : Nat) (h : List.Forall₂ (MemberReadsAs levels) es outs)
    (hnames : (es.map (·.1)).Nodup) :
    ReadsAs (levels + 1) (.map (es.map toEntry))
      (enclose style depth '\x7b' '\x7d' outs) := by
  cases h with
  | nil => exact readsAs_of_brackets rfl (by decide) fun _ _ _ _ _ _ => rfl
  | @cons e out es outs he hes =>
      rw [enclose_cons]
      refine readsAs_of_brackets rfl (by decide)
        fun fuel l rest hfuel hl hrest => ?_
      simp only [List.length_append, List.length_cons] at hfuel
      obtain ⟨t, ht⟩ :=
        Text.exists_joinWith_eq_append (',' :: margin style (depth + 1)) out outs
      obtain ⟨blank, item, hout, -⟩ := he.reads
      have hclosing : Follows (margin style depth ++ '\x7d' :: rest) :=
        follows_margin (by simp [Follows])
      have hmembers : readMembers fuel l ([].map toEntry) _ = _ :=
        readMembers_joinWith
          (isSpace_margin style (depth + 1)) (isSpace_margin style depth)
          hclosing hl rfl (.cons he hes) (List.cons_ne_nil _ _) hnames
          (by omega)
      rw [List.append_assoc, List.append_assoc, List.append_assoc]
      rw [ht, hout] at hmembers ⊢
      exact (readValue_members ((skipSpace_append (isSpace_margin _ _)).trans
        (skipSpace_cons rfl)) (by decide)).trans hmembers

-- ================================================== what can be read back

/-- A value that JSON text can carry, with arrays and objects nested up to
some depth: integers are not too long, floating-point numbers are read back
from their texts, keys are texts, and no two of the same map are the
same. -/
inductive Readable : Nat → Value → Prop
  | null {n : Nat} : Readable n .null
  | bool {n : Nat} {b : Bool} : Readable n (.bool b)
  | int {n : Nat} {i : Int} (hi : i.natAbs < Nat.pow 10 Numeral.digitLimit) :
      Readable n (.int i)
  | float {n : Nat} {x : Double} (hx : x.ReadsBack) : Readable n (.float x)
  | text {n : Nat} {s : Text} : Readable n (.text s)
  | term {n : Nat} {t : Term} : Readable n (.term t)
  | list {n : Nat} {items : List Value} (hitems : ∀ v ∈ items, Readable n v) :
      Readable (n + 1) (.list items)
  | map {n : Nat} {entries : Value.Entries} (names : List Text)
      (hnames : entries.map (·.1.text?) = names.map some)
      (hnodup : names.Nodup) (hentries : ∀ e ∈ entries, Readable n e.2) :
      Readable (n + 1) (.map entries)

/-- A value is written to some text, as it is and with the texts that stand
for its terms, and the text is read back as the latter. -/
def WritesBack (style : Style) (levels depth : Nat) (v : Value) : Prop :=
  ∃ out, writeAt style depth v = .ok out
    ∧ writeAt style depth (v.mapTexts id) = .ok out
    ∧ ReadsAs levels (v.mapTexts id) out

theorem writesBack_items {depth : Nat} {items : List Value}
    (h : ∀ v ∈ items, WritesBack style levels depth v) :
    ∃ outs, writeItems style depth items = .ok outs
      ∧ writeItems style depth (Value.mapItemTexts id items) = .ok outs
      ∧ List.Forall₂ (ReadsAs levels) (Value.mapItemTexts id items) outs := by
  induction items with
  | nil => exact ⟨[], rfl, rfl, .nil⟩
  | cons v items ih =>
      obtain ⟨hv, hitems⟩ := List.forall_mem_cons.mp h
      obtain ⟨out, hwrite, hwrite', hread⟩ := hv
      obtain ⟨outs, hwrites, hwrites', hreads⟩ := ih hitems
      refine ⟨out :: outs, ?_, ?_, .cons hread hreads⟩
      · rw [writeItems, hwrite, hwrites]
        rfl
      · rw [Value.mapItemTexts, writeItems, hwrite', hwrites']
        rfl

theorem keyText_of_text? (style : Style) {k : Value} {name : Text}
    (hk : k.text? = some name) :
    k.mapTexts id = .text name ∧ keyText style k = .ok name := by
  cases k with
  | text s
  | term t =>
      cases hk
      exact ⟨rfl, rfl⟩
  | _ => cases hk

theorem writesBack_entries {depth : Nat} {entries : Value.Entries}
    {names : List Text} (hstyle : style.ascii = false)
    (hnames : entries.map (·.1.text?) = names.map some)
    (h : ∀ e ∈ entries, WritesBack style levels depth e.2) :
    ∃ outs es, writeEntries style depth entries = .ok outs
      ∧ writeEntries style depth (Value.mapEntryTexts id entries) = .ok outs
      ∧ Value.mapEntryTexts id entries = es.map toEntry
      ∧ es.map (·.1) = names
      ∧ List.Forall₂ (MemberReadsAs levels) es outs := by
  induction entries generalizing names with
  | nil =>
      obtain rfl : names = [] := List.map_eq_nil_iff.mp hnames.symm
      exact ⟨[], [], rfl, rfl, rfl, rfl, .nil⟩
  | cons e entries ih =>
      obtain ⟨k, v⟩ := e
      obtain ⟨name, names, rfl, hname, hnames⟩ :=
        List.map_eq_cons_iff.mp hnames.symm
      obtain ⟨hv, hentries⟩ := List.forall_mem_cons.mp h
      obtain ⟨out, hwrite, hwrite', hread⟩ := hv
      obtain ⟨outs, es, hwrites, hwrites', hes, rfl, hreads⟩ :=
        ih hnames.symm hentries
      obtain ⟨hkey, htext⟩ := keyText_of_text? style hname.symm
      refine ⟨(writeText false name ++ colon style ++ out) :: outs,
        (name, v.mapTexts id) :: es, ?_, ?_, ?_, rfl, .cons ⟨?_⟩ hreads⟩
      · rw [writeEntries, htext, hwrite, hwrites, hstyle]
        rfl
      · rw [Value.mapEntryTexts, writeEntries, hkey, hwrite', hwrites', hstyle]
        rfl
      · rw [Value.mapEntryTexts, hkey, hes]
        rfl
      · refine ⟨if style.indented then [' '] else [], out, ?_, ?_, hread⟩
        · unfold colon
          split <;> simp
        · split
          · exact List.forall_mem_singleton.mpr rfl
          · exact fun c hc => absurd hc List.not_mem_nil

/-- What can be read back is read back, in every style that shows all
characters as themselves and at every depth. -/
theorem writesBack_of_readable {n : Nat} (hv : Readable n v)
    (hstyle : style.ascii = false) : ∀ depth, WritesBack style n depth v := by
  induction hv with
  | null =>
      refine fun _ => ⟨_, rfl, rfl, readsAs_of_readScalar ?_ fun _ _ => rfl⟩
      exact ⟨'n', ['u', 'l', 'l'], rfl, rfl, by decide⟩
  | @bool _ b =>
      refine fun _ => ⟨_, rfl, rfl, ?_⟩
      cases b with
      | false =>
          refine readsAs_of_readScalar ?_ fun _ _ => rfl
          exact ⟨'f', ['a', 'l', 's', 'e'], rfl, rfl, by decide⟩
      | true =>
          refine readsAs_of_readScalar ?_ fun _ _ => rfl
          exact ⟨'t', ['r', 'u', 'e'], rfl, rfl, by decide⟩
  | @int _ i hi =>
      have hwrite : writeInt i = .ok (Text.ofInt i) := by
        rw [writeInt, if_neg (Nat.not_le.mpr hi)]
      refine fun _ => ⟨_, hwrite, hwrite, readsAs_of_readScalar ?_ ?_⟩
      · exact begins_ofInt i
      · exact fun _ hrest => readScalar_ofInt hi hrest
  | float hx =>
      refine fun _ => ⟨_, rfl, rfl, readsAs_of_readScalar ?_ ?_⟩
      · exact begins_writeDouble hx
      · exact fun _ hrest => readScalar_writeDouble hx hrest
  | text =>
      intro depth
      refine ⟨_, rfl, rfl, ?_⟩
      rw [hstyle]
      exact readsAs_writeText _
  | term =>
      intro depth
      refine ⟨_, rfl, rfl, ?_⟩
      rw [hstyle]
      exact readsAs_writeText _
  | list _ ih =>
      intro depth
      obtain ⟨outs, hwrites, hwrites', hreads⟩ :=
        writesBack_items fun v hv => ih v hv (depth + 1)
      refine ⟨_, congrArg (Except.map _) hwrites,
        congrArg (Except.map _) hwrites', readsAs_list depth hreads⟩
  | map names hnames hnodup _ ih =>
      intro depth
      obtain ⟨outs, es, hwrites, hwrites', hes, rfl, hreads⟩ :=
        writesBack_entries hstyle hnames fun e he => ih e he (depth + 1)
      refine ⟨_, congrArg (Except.map _) hwrites,
        congrArg (Except.map _) hwrites', ?_⟩
      rw [Value.mapTexts, hes]
      exact readsAs_map depth hreads hnodup

/-- A text that reads as a value is the JSON of that value. -/
theorem ReadsAs.read (h : ReadsAs depthLimit v out) : read out = .ok v := by
  obtain ⟨c, t, hout, hspace, hc⟩ := h.begins
  -- no value begins with a byte order mark or with space
  have hmark : out.head? ≠ some '\uFEFF' := by
    rw [hout]
    intro hhead
    rw [Option.some.inj hhead] at hc
    exact hc (List.mem_cons_of_mem _ (List.mem_singleton_self _))
  have hskip : skipSpace out = out := by
    have hskip := h.skipSpace_append []
    rwa [List.append_nil] at hskip
  have hvalue := h.reads (2 * out.length + 2) depthLimit [] (by omega)
    (Nat.le_refl _) (by simp [Follows])
  rw [List.append_nil] at hvalue
  rw [Json.read, readAll, if_neg hmark, hskip, hvalue]
  rfl

/-- What is written is read back, and written the same again. -/
theorem read_write (style : Style) (hv : Readable depthLimit v)
    (hstyle : style.ascii = false) :
    ∃ out, write style v = .ok out ∧ read out = .ok (v.mapTexts id)
      ∧ write style (v.mapTexts id) = .ok out := by
  obtain ⟨out, hwrite, hwrite', hread⟩ := writesBack_of_readable hv hstyle 0
  exact ⟨out, hwrite, hread.read, hwrite'⟩

/-- Content that is JSON text, whatever it is handed over as, is restated as
the text of what is read. -/
theorem toJson_of_read {content mediaType : Value} {base compact : Text}
    (hbase : Content.baseOfValue mediaType = .ok base)
    (hformat : Content.Format.ofMediaType? base = some .json)
    (htext : Content.text content base = .ok out) (hread : read out = .ok v)
    (hwrite : write .compact v = .ok compact) :
    Content.toJson content mediaType = .ok compact := by
  have hrestate : Content.restate out = .ok compact := by
    rw [Content.restate, hread]
    dsimp only
    rw [Content.dump, hwrite]
  simp only [Content.toJson, hbase, htext, hformat, Content.ofJson, hrestate,
    bind, Except.bind]

/-- JSON text in any layout is restated on one line. -/
theorem toJson_write {mediaType : Value} {base compact : Text}
    (hbase : Content.baseOfValue mediaType = .ok base)
    (hformat : Content.Format.ofMediaType? base = some .json)
    (hv : Readable depthLimit v) (hstyle : style.ascii = false)
    (hwrite : write style v = .ok out)
    (hcompact : write .compact v = .ok compact) :
    Content.toJson (.text out) mediaType = .ok compact := by
  obtain ⟨_, hout, hread, -⟩ := read_write style hv hstyle
  obtain ⟨_, hline, -, hagain⟩ := read_write .compact hv rfl
  cases hwrite.symm.trans hout
  cases hcompact.symm.trans hline
  exact toJson_of_read hbase hformat rfl hread hagain

end AuditTrail.Json
