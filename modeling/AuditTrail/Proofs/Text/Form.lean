/-
Queries are read back.

An octet in form encoding says which octet it is, whatever follows it
(`octets_encodeOctet`), so a component decodes to the text it was made from.
What is encoded holds none of the characters that separate components, so a
query falls into the components that it was joined from (`readQuery_query`).
-/
import AuditTrail.Proofs.Text.Pieces
import AuditTrail.Proofs.Text.Utf8
import AuditTrail.Text.Form

namespace AuditTrail.Text.Form

variable {s rest : Text} {b : UInt8} {c : Char} {pairs : List (Text × Text)}

-- ============================================================ components

/-- The characters that have a meaning in queries. -/
def marks : Text := ['+', '%', '&', '=']

/-- Every octet is the number of a character. -/
theorem toNat_ofNat (b : UInt8) : (Char.ofNat b.toNat).toNat = b.toNat := by
  have hb := b.toNat_lt
  have hvalid : b.toNat.isValidChar := .inl (by omega)
  rw [Char.ofNat, dif_pos hvalid]
  rfl

/-- An octet that stands for itself is none of them. -/
theorem notMem_marks_of_isPlain (hb : isPlain b = true) :
    Char.ofNat b.toNat ∉ marks := by
  intro hmem
  unfold isPlain at hb
  rw [← toNat_ofNat b] at hb
  simp only [marks, List.mem_cons, List.not_mem_nil, or_false] at hmem
  rcases hmem with h | h | h | h
  all_goals
    rw [h] at hb
    exact absurd hb (by decide)

/-- An octet is read back, and what follows it is left. -/
theorem octets_encodeOctet (b : UInt8) (rest : Text) :
    octets (encodeOctet b ++ rest) = (octets rest).map (b :: ·) := by
  unfold encodeOctet
  split
  case isTrue hb =>
    have hmarks := notMem_marks_of_isPlain hb
    simp only [marks, List.mem_cons, not_or] at hmarks
    obtain ⟨hplus, hpercent, -⟩ := hmarks
    rw [List.singleton_append, octets.eq_4 _ _ hplus
      fun _ _ _ h => absurd h hpercent, if_neg hpercent, toNat_ofNat,
      UInt8.ofNat_toNat]
  case isFalse =>
    split
    case isTrue hb =>
      rw [hb]
      rfl
    case isFalse =>
      have hb := b.toNat_lt
      have hhigh := hexValue?_hexDigitUpper (b.toNat / 16) (by omega)
      have hlow := hexValue?_hexDigitUpper (b.toNat % 16) (by omega)
      have hsum : 16 * (b.toNat / 16) + b.toNat % 16 = b.toNat := by omega
      show octets ('%' :: _ :: _ :: rest) = _
      rw [octets, hhigh, hlow]
      simp only [bind, Option.bind, hsum, UInt8.ofNat_toNat]
      cases octets rest <;> rfl

theorem octets_flatMap (bytes : Bytes) :
    octets (bytes.flatMap encodeOctet) = some bytes := by
  induction bytes with
  | nil => rfl
  | cons b bytes ih =>
      rw [List.flatMap_cons, octets_encodeOctet, ih]
      rfl

/-- A component is read back. -/
theorem decode_encode (s : Text) : decode (encode s) = some s := by
  unfold decode encode
  rw [octets_flatMap, Option.bind_some, Utf8.decode_encode]
  rfl

/-- No component holds what separates components. -/
theorem notMem_encode (hc : c ∈ ['&', '=']) (s : Text) : c ∉ encode s := by
  have hmarks : c ∈ marks := .tail _ (.tail _ hc)
  have hdigits : ∀ n < 16, hexDigitUpper n ∉ ['&', '='] := by decide
  intro hmem
  obtain ⟨b, -, hmem⟩ := List.mem_flatMap.mp hmem
  have hb := b.toNat_lt
  unfold encodeOctet at hmem
  split at hmem
  case isTrue hplain =>
    rw [List.mem_singleton.mp hmem] at hmarks
    exact notMem_marks_of_isPlain hplain hmarks
  case isFalse =>
    split at hmem
    case isTrue =>
      rw [List.mem_singleton.mp hmem] at hc
      exact absurd hc (by decide)
    case isFalse =>
      simp only [List.mem_cons, List.not_mem_nil, or_false] at hmem
      rcases hmem with rfl | rfl | rfl
      · exact absurd hc (by decide)
      · exact hdigits _ (by omega) hc
      · exact hdigits _ (by omega) hc

-- =============================================================== queries

/-- A named component: what stands before its first equals sign and what
stands after it. -/
def readPair (s : Text) : Option (Text × Text) := do
  let (name, value) ← cutFirst '=' s
  some (← decode name, ← decode value)

/-- The named components of a query. -/
def readQuery (s : Text) : Option (List (Text × Text)) :=
  (splitAt '&' s).mapM readPair

theorem readPair_pair (p : Text × Text) : readPair (pair p) = some p := by
  unfold readPair pair
  rw [cutFirst_append (notMem_encode (by decide) _)]
  simp only [bind, Option.bind, decode_encode]

theorem ampersand_notMem_pair (p : Text × Text) : '&' ∉ pair p := by
  have hnot := notMem_encode (c := '&') (by decide)
  unfold pair
  rw [List.mem_append, List.mem_cons, not_or, not_or]
  exact ⟨hnot _, by decide, hnot _⟩

theorem mapM_readPair (pairs : List (Text × Text)) :
    (pairs.map pair).mapM readPair = some pairs := by
  induction pairs with
  | nil => rfl
  | cons p pairs ih =>
      rw [List.map_cons, List.mapM_cons, readPair_pair, ih]
      rfl

/-- A query is read back, component by component. -/
theorem readQuery_query (hne : pairs ≠ []) :
    readQuery (query pairs) = some pairs := by
  unfold readQuery query
  rw [splitAt_joinWith (List.forall_mem_map.mpr fun p _ =>
    ampersand_notMem_pair p) (mt List.map_eq_nil_iff.mp hne)]
  exact mapM_readPair pairs

/-- A query can be written exactly if none of its components holds half of a
surrogate pair. -/
theorem flaw?_eq_none_iff {halves : Text → Utf8.Halves} :
    flaw? halves pairs = none ↔ ∀ p ∈ pairs, (halves p.1).Absent p.2 := by
  rw [flaw?, List.findSome?_eq_none_iff]
  exact forall₂_congr fun _ _ => Utf8.encodeError?_eq_none_iff

theorem flaw?_none (pairs : List (Text × Text)) :
    flaw? (fun _ => .none) pairs = none :=
  flaw?_eq_none_iff.mpr fun p _ => Utf8.Halves.absent_none p.2

end AuditTrail.Text.Form
