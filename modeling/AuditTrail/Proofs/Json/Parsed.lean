/-
What reading JSON text yields.

A value that was read is made of scalars, arrays and objects (`Parsed`): its
integers are not too long, its containers not nested too deeply, and the
members of an object are named apart. For where a name occurs again, the
member of that name gets the value and keeps its place (`setMember`). One
induction on the steps of the reader shows it for its three rules
(`readsParsed`).
-/
import AuditTrail.Proofs.Json.ReadBack
import AuditTrail.Proofs.Number.ReadsBack
import AuditTrail.Proofs.Value.Typed

namespace AuditTrail.Json

variable {levels l fuel : Nat} {v : Value} {s rest name : Text} {c : Char}
  {es : List (Text × Value)}

-- ============================================================== members

/-- Members after one more was read: a name that is there keeps its place
and gets the value, one that is new comes last. -/
def setMember (name : Text) (v : Value) :
    List (Text × Value) → List (Text × Value)
  | [] => [(name, v)]
  | e :: es =>
    if e.1 = name then (name, v) :: es else e :: setMember name v es

/-- The reader puts members into a map so. -/
theorem put_eq_setMember (name : Text) (v : Value)
    (es : List (Text × Value)) :
    Value.put false (es.map toEntry) (.text name) v
      = (setMember name v es).map toEntry := by
  induction es with
  | nil => rfl
  | cons e es ih =>
      have hsame : Value.same false (toEntry e).1 (.text name)
          = (e.1 == name) := by
        rw [Value.same_ofText]
        rfl
      rw [List.map_cons, Value.put, hsame, setMember]
      by_cases hname : e.1 = name
      · rw [if_pos hname, if_pos (beq_iff_eq.mpr hname), ← hname]
        rfl
      · rw [if_neg hname, if_neg (mt beq_iff_eq.mp hname), ih]
        rfl

/-- The names stay as they are, with a new one at the end. -/
theorem names_setMember (name : Text) (v : Value)
    (es : List (Text × Value)) :
    (setMember name v es).map (·.1)
      = es.map (·.1) ++ if name ∈ es.map (·.1) then [] else [name] := by
  induction es with
  | nil => rfl
  | cons e es ih =>
      rw [setMember, List.map_cons]
      by_cases hname : e.1 = name
      · rw [if_pos hname, if_pos (hname ▸ List.mem_cons_self), hname,
          List.append_nil]
        rfl
      · have hmem : name ∈ e.1 :: es.map (·.1) ↔ name ∈ es.map (·.1) := by
          rw [List.mem_cons, or_iff_right (Ne.symm hname)]
        rw [if_neg hname, List.map_cons, ih]
        simp only [hmem, List.cons_append]

theorem nodup_setMember (hnames : (es.map (·.1)).Nodup) :
    ((setMember name v es).map (·.1)).Nodup := by
  rw [names_setMember]
  split
  case isTrue => rwa [List.append_nil]
  case isFalse hname =>
    exact hnames.append (List.nodup_singleton name)
      (List.disjoint_singleton.mpr hname)

theorem mem_setMember {e : Text × Value} (he : e ∈ setMember name v es) :
    e ∈ es ∨ e = (name, v) := by
  induction es with
  | nil => exact .inr (List.mem_singleton.mp he)
  | cons d es ih =>
      rw [setMember] at he
      split at he
      case isTrue =>
        rcases List.mem_cons.mp he with rfl | he
        · exact .inr rfl
        · exact .inl (List.mem_cons_of_mem _ he)
      case isFalse =>
        rcases List.mem_cons.mp he with rfl | he
        · exact .inl List.mem_cons_self
        · exact (ih he).imp_left (List.mem_cons_of_mem _)

-- =============================================================== values

/-- A value that was read, with arrays and objects nested up to some depth.
Its floating-point numbers are as rounding leaves them. -/
inductive Parsed : Nat → Value → Prop
  | null {n : Nat} : Parsed n .null
  | bool {n : Nat} {b : Bool} : Parsed n (.bool b)
  | int {n : Nat} {i : Int} (hi : i.natAbs < Nat.pow 10 Numeral.digitLimit) :
      Parsed n (.int i)
  | float {n : Nat} {x : Double} (hx : x.WellFormed) : Parsed n (.float x)
  | text {n : Nat} {s : Text} : Parsed n (.text s)
  | list {n : Nat} {items : List Value} (hitems : ∀ v ∈ items, Parsed n v) :
      Parsed (n + 1) (.list items)
  | map {n : Nat} {es : List (Text × Value)} (hnames : (es.map (·.1)).Nodup)
      (hes : ∀ e ∈ es, Parsed n e.2) : Parsed (n + 1) (.map (es.map toEntry))

-- ============================================================== scalars

/-- A number is a floating-point number, or an integer that is not too
long. -/
theorem readNumber_parsed {start : Text} {negative : Bool}
    (h : readNumber start negative s = .ok (v, rest)) : Parsed levels v := by
  unfold readNumber at h
  split at h
  case h_1 => cases h
  case h_2 whole t hwhole =>
    dsimp only at h
    split at h
    case h_1 =>
      split at h
      case isTrue => cases h
      case isFalse hlength =>
        cases h
        have hlt := getD_digitsValue?_lt (Nat.not_lt.mp hlength)
        refine .int ?_
        split
        · rwa [Int.natAbs_neg]
        · exact hlt
    case h_2 =>
      cases h
      exact .float (Numeral.wellFormed_ofParts _ _ _ _)

theorem readScalar_parsed (h : readScalar s = .ok (v, rest)) :
    Parsed levels v := by
  unfold readScalar at h
  -- the words, and then numbers
  iterate 6
    split at h
    · cases h
      first | exact .null | exact .bool | exact .float trivial
  split at h
  · exact readNumber_parsed h
  · exact readNumber_parsed h

-- =========================================================== containers

/-- The rules of the reader with so many steps to go. -/
structure ReadsParsed (fuel : Nat) : Prop where
  value {levels : Nat} {s rest : Text} {v : Value}
    (h : readValue fuel levels s = .ok (v, rest)) : Parsed levels v
  items {levels : Nat} {acc : List Value} {s rest : Text} {v : Value}
    (hacc : ∀ w ∈ acc, Parsed levels w)
    (h : readItems fuel levels acc s = .ok (v, rest)) : Parsed (levels + 1) v
  members {levels : Nat} {es : List (Text × Value)} {s rest : Text} {v : Value}
    (hnames : (es.map (·.1)).Nodup) (hes : ∀ e ∈ es, Parsed levels e.2)
    (h : readMembers fuel levels (es.map toEntry) s = .ok (v, rest)) :
    Parsed (levels + 1) v

theorem ReadsParsed.readValue_succ (ih : ReadsParsed fuel)
    (h : readValue (fuel + 1) levels s = .ok (v, rest)) : Parsed levels v := by
  have hnone : (([] : List (Text × Value)).map (·.1)).Nodup := List.nodup_nil
  have hempty {n : Nat} : Parsed (n + 1) (.map ([].map toEntry)) :=
    .map hnone fun _ he => absurd he List.not_mem_nil
  rw [readValue.eq_def] at h
  dsimp only at h
  split at h
  case h_1 =>
    split at h
    case h_1 => cases h
    case h_2 =>
      cases h
      exact .text
  case h_2 =>
    split at h
    case h_1 => cases h
    case h_2 =>
      split at h
      case h_1 =>
        cases h
        exact .list fun _ hv => absurd hv List.not_mem_nil
      case h_2 => exact ih.items (fun _ hv => absurd hv List.not_mem_nil) h
  case h_3 =>
    split at h
    case h_1 => cases h
    case h_2 =>
      split at h
      case h_1 =>
        cases h
        exact hempty
      case h_2 =>
        exact ih.members hnone (fun _ he => absurd he List.not_mem_nil) h
  case h_4 => exact readScalar_parsed h

theorem ReadsParsed.readItems_succ {acc : List Value}
    (ih : ReadsParsed fuel) (hacc : ∀ w ∈ acc, Parsed levels w)
    (h : readItems (fuel + 1) levels acc s = .ok (v, rest)) :
    Parsed (levels + 1) v := by
  rw [readItems] at h
  split at h
  case h_1 => cases h
  case h_2 w t hw =>
    have hall : ∀ u ∈ w :: acc, Parsed levels u :=
      List.forall_mem_cons.mpr ⟨ih.value hw, hacc⟩
    split at h
    case h_1 =>
      cases h
      exact .list fun u hu => hall u (List.mem_reverse.mp hu)
    case h_2 => exact ih.items hall h
    case h_3 => cases h

theorem ReadsParsed.readMembers_succ (ih : ReadsParsed fuel)
    (hnames : (es.map (·.1)).Nodup) (hes : ∀ e ∈ es, Parsed levels e.2)
    (h : readMembers (fuel + 1) levels (es.map toEntry) s = .ok (v, rest)) :
    Parsed (levels + 1) v := by
  rw [readMembers.eq_def] at h
  dsimp only at h
  split at h
  case h_2 => cases h
  case h_1 =>
    split at h
    case h_1 => cases h
    case h_2 name t hname =>
      split at h
      case h_2 => cases h
      case h_1 =>
        split at h
        case h_1 => cases h
        case h_2 w u hw =>
          have hset : ∀ e ∈ setMember name w es, Parsed levels e.2 := by
            intro e he
            rcases mem_setMember he with he | rfl
            · exact hes e he
            · exact ih.value hw
          rw [put_eq_setMember] at h
          split at h
          case h_1 =>
            cases h
            exact .map (nodup_setMember hnames) hset
          case h_2 => exact ih.members (nodup_setMember hnames) hset h
          case h_3 => cases h

theorem readsParsed (fuel : Nat) : ReadsParsed fuel := by
  induction fuel with
  | zero => exact ⟨nofun, fun _ => nofun, fun _ _ => nofun⟩
  | succ fuel ih =>
      exact ⟨ih.readValue_succ, ih.readItems_succ, ih.readMembers_succ⟩

/-- What is read is nested up to the limit. -/
theorem parsed_of_read (h : read s = .ok v) : Parsed depthLimit v := by
  obtain ⟨_, hvalue, -⟩ := exists_of_read h
  exact (readsParsed _).value hvalue

-- ======================================================== reading it back

/-- Nothing in it stands for a text without being one. -/
theorem Parsed.mapTexts_eq {n : Nat} (hv : Parsed n v) :
    v.mapTexts id = v := by
  induction hv with
  | list _ ih =>
      rw [Value.mapTexts, Value.mapItemTexts_eq]
      exact congrArg _ ((List.map_congr_left ih).trans (List.map_id _))
  | map _ _ ih =>
      rw [Value.mapTexts, Value.mapEntryTexts_eq, List.map_map]
      refine congrArg _ (List.map_congr_left fun e he => ?_)
      exact congrArg (Prod.mk _) (ih e he)
  | _ => rfl

/-- It can be read back. -/
theorem Parsed.readable {n : Nat} (hv : Parsed n v) : Readable n v := by
  induction hv with
  | null => exact .null
  | bool => exact .bool
  | int hi => exact .int hi
  | float hx => exact .float (Double.readsBack_of_wellFormed hx)
  | text => exact .text
  | list _ ih => exact .list ih
  | @map n es hnames _ ih =>
      refine .map (es.map (·.1)) ?_ hnames fun e he => ?_
      · rw [List.map_map, List.map_map]
        rfl
      · obtain ⟨d, hd, rfl⟩ := List.mem_map.mp he
        exact ih d hd

end AuditTrail.Json
