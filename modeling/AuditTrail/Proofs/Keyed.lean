/-
Entries under keys, put one after the other.

What is put under a key that has an entry replaces it in its place; under a
new key it comes last. So the keys stand in the order in which they were
first put (`keys_putAll`), and each holds what was put there last
(`lookup_putAll`). The fields of a record and the paths of file arguments
are both kept in this way.
-/
import Mathlib.Data.List.Induction

namespace AuditTrail.Keyed

variable {κ α : Type} [DecidableEq κ] {k : κ} {v : α} {l : List (κ × α)}

/-- The entries after one was put. -/
def put (k : κ) (v : α) : List (κ × α) → List (κ × α)
  | [] => [(k, v)]
  | e :: rest => if e.1 = k then (k, v) :: rest else e :: put k v rest

/-- The entries after several were put, one after the other. -/
def putAll (l more : List (κ × α)) : List (κ × α) :=
  more.foldl (fun l e => put e.1 e.2 l) l

-- ================================================================ one entry

/-- A key that has an entry leaves the order alone; another one is added at
the end. -/
theorem keys_put (k : κ) (v : α) (l : List (κ × α)) :
    (put k v l).map (·.1)
      = if k ∈ l.map (·.1) then l.map (·.1) else l.map (·.1) ++ [k] := by
  induction l with
  | nil => rfl
  | cons e rest ih =>
      rw [put]
      by_cases he : e.1 = k
      · rw [if_pos he, if_pos (List.mem_map.mpr ⟨e, List.mem_cons_self, he⟩),
          List.map_cons, List.map_cons, he]
      · rw [if_neg he, List.map_cons, ih]
        have hmem : k ∈ (e :: rest).map (·.1) ↔ k ∈ rest.map (·.1) := by
          rw [List.map_cons, List.mem_cons, or_iff_right (Ne.symm he)]
        by_cases hk : k ∈ rest.map (·.1)
        · rw [if_pos hk, if_pos (hmem.mpr hk), List.map_cons]
        · rw [if_neg hk, if_neg (fun h => hk (hmem.mp h)), List.map_cons,
            List.cons_append]

/-- What is put under a new key comes last, and the rest stays. -/
theorem put_of_notMem (hk : k ∉ l.map (·.1)) : put k v l = l ++ [(k, v)] := by
  induction l with
  | nil => rfl
  | cons e rest ih =>
      rw [List.map_cons, List.mem_cons, not_or] at hk
      rw [put, if_neg (Ne.symm hk.1), ih hk.2, List.cons_append]

section lookup

variable [BEq κ] [LawfulBEq κ]

/-- Only the key that is put changes what it holds. -/
theorem lookup_put (k j : κ) (v : α) (l : List (κ × α)) :
    (put k v l).lookup j = if k = j then some v else l.lookup j := by
  induction l with
  | nil =>
      rw [put, List.lookup_cons]
      by_cases h : k = j
      · subst h
        simp
      · rw [if_neg h, beq_false_of_ne (Ne.symm h)]
  | cons e rest ih =>
      obtain ⟨i, w⟩ := e
      rw [put]
      by_cases hi : i = k
      · subst hi
        rw [if_pos rfl, List.lookup_cons, List.lookup_cons]
        by_cases h : i = j
        · subst h
          simp
        · rw [if_neg h, beq_false_of_ne (Ne.symm h)]
      · rw [if_neg hi, List.lookup_cons, List.lookup_cons, ih]
        by_cases h : k = j
        · subst h
          rw [beq_false_of_ne (Ne.symm hi)]
        · rw [if_neg h, if_neg h]

-- ========================================================== several entries

/-- Keys stand in the order in which they were first put. -/
theorem keys_putAll (more : List (κ × α)) :
    (putAll [] more).map (·.1) = (more.map (·.1)).eraseDups := by
  -- from the last entry on: it is the one that may come too late
  induction more using List.reverseRecOn with
  | nil => rfl
  | append_singleton more e ih =>
      have hlast : putAll [] (more ++ [e]) = put e.1 e.2 (putAll [] more) :=
        List.foldl_append
      rw [hlast, keys_put, ih, List.map_append, List.eraseDups_append]
      by_cases he : e.1 ∈ more.map (·.1)
      · rw [if_pos (List.mem_eraseDups.mpr he)]
        simp [List.removeAll, he]
      · rw [if_neg (fun h => he (List.mem_eraseDups.mp h))]
        simp [List.removeAll, he, List.eraseDups_cons]

/-- A key holds what was put there last, or what it held before. -/
theorem lookup_putAll (l more : List (κ × α)) (k : κ) :
    (putAll l more).lookup k = (more.reverse.lookup k).or (l.lookup k) := by
  induction more generalizing l with
  | nil => rfl
  | cons e more ih =>
      have hfirst : putAll l (e :: more) = putAll (put e.1 e.2 l) more := rfl
      rw [hfirst, ih, lookup_put, List.reverse_cons, List.lookup_append,
        Option.or_assoc]
      congr 1
      rw [List.lookup_cons]
      by_cases he : e.1 = k
      · rw [if_pos he, he, beq_self_eq_true]
        rfl
      · rw [if_neg he, beq_false_of_ne (Ne.symm he)]
        rfl

end lookup

end AuditTrail.Keyed
