/-
Which files are asked for.

A file argument says a key and a path: what stands before its first equals
sign and what stands behind it, or the argument itself twice where there is
none (`Says`). One that lacks a part is refused (`Lacking`), and the first
one that is refused refuses all of them. If none is, the arguments stand for
the paths that they say one after the other (`fileArguments_cases`): the
distinct keys in the order of their first arguments, each with the path of
its last one (`Assigns`).
-/
import AuditTrail.Command.Run
import AuditTrail.Proofs.Keyed
import AuditTrail.Proofs.Text.Pieces
import Mathlib.Data.List.Forall2

namespace AuditTrail.Command

variable {s : Text} {p : Text × Text} {args : List Text}
  {parts paths : List (Text × Text)}

-- ============================================================== one argument

/-- The key and the path that a file argument says. -/
inductive Says : Text → Text × Text → Prop
  /-- Without an equals sign an argument is its own key. -/
  | path {s : Text} (hs : '=' ∉ s) : Says s (s, s)
  | both {key path : Text} (hkey : '=' ∉ key) :
      Says (key ++ '=' :: path) (key, path)

/-- An argument that is empty, or has nothing before its first equals sign or
nothing behind it. -/
inductive Lacking : Text → Prop
  | all : Lacking []
  | key {path : Text} : Lacking ('=' :: path)
  | path {key : Text} (hkey : '=' ∉ key) : Lacking (key ++ ['='])

theorem exists_says (s : Text) : ∃ p, Says s p := by
  by_cases hs : '=' ∈ s
  · obtain ⟨key, path, rfl, hkey⟩ := List.eq_append_cons_of_mem hs
    exact ⟨_, .both hkey⟩
  · exact ⟨_, .path hs⟩

theorem Says.getD_cutFirst (h : Says s p) :
    (Text.cutFirst '=' s).getD (s, s) = p := by
  cases h with
  | path hs => rw [Text.cutFirst_of_notMem hs, Option.getD_none]
  | both hkey => rw [Text.cutFirst_append hkey, Option.getD_some]

/-- An argument lacks a part if its key or its path is empty. -/
theorem Says.lacking_iff (h : Says s p) :
    Lacking s ↔ p.1 = [] ∨ p.2 = [] := by
  have hcut := h.getD_cutFirst
  constructor
  · intro hs
    cases hs with
    | all =>
        cases hcut
        exact .inl rfl
    | @key path =>
        have hkey : Text.cutFirst '=' ('=' :: path) = some ([], path) :=
          if_pos rfl
        rw [hkey] at hcut
        cases hcut
        exact .inl rfl
    | path hkey =>
        rw [Text.cutFirst_append hkey] at hcut
        cases hcut
        exact .inr rfl
  · intro hp
    cases h with
    | path hs =>
        obtain rfl : s = [] := hp.elim id id
        exact .all
    | both hkey =>
        rcases hp with rfl | rfl
        · exact .key
        · exact .path hkey

/-- A file argument is taken for what it says, unless it lacks a part. -/
theorem Says.fileArgument_eq (h : Says s p) (hs : ¬ Lacking s) :
    fileArgument s = .ok p := by
  rw [h.lacking_iff, not_or] at hs
  have hparts : (p.1.isEmpty || p.2.isEmpty) = false := by
    rw [List.isEmpty_eq_false_iff.mpr hs.1, List.isEmpty_eq_false_iff.mpr hs.2]
    rfl
  unfold fileArgument
  rw [h.getD_cutFirst]
  dsimp only
  rw [hparts, if_neg Bool.false_ne_true]

theorem Lacking.fileArgument_eq (hs : Lacking s) :
    fileArgument s = .error (.fileArgument (Text.quoted s)) := by
  obtain ⟨p, hp⟩ := exists_says s
  have hparts : (p.1.isEmpty || p.2.isEmpty) = true := by
    rw [Bool.or_eq_true, List.isEmpty_iff, List.isEmpty_iff]
    exact hp.lacking_iff.mp hs
  unfold fileArgument
  rw [hp.getD_cutFirst]
  dsimp only
  rw [hparts, if_pos rfl]

-- ========================================================= several arguments

/-- Paths under the keys that some arguments say: each key stands where it
was said first and has the path that was said last. -/
structure Assigns (parts paths : List (Text × Text)) : Prop where
  keys : paths.map (·.1) = (parts.map (·.1)).eraseDups
  last : ∀ key, paths.lookup key = parts.reverse.lookup key

theorem putPath_eq (key path : Text) (paths : List (Text × Text)) :
    putPath key path paths = Keyed.put key path paths := by
  induction paths with
  | nil => rfl
  | cons p rest ih => rw [putPath, Keyed.put, ih]

theorem assigns_putPaths (parts : List (Text × Text)) :
    Assigns parts (putPaths parts) := by
  have hput : putPaths parts = Keyed.putAll [] parts := by
    unfold putPaths Keyed.putAll
    simp only [putPath_eq]
  rw [hput]
  refine ⟨Keyed.keys_putAll parts, fun key => ?_⟩
  rw [Keyed.lookup_putAll, List.lookup_nil, Option.or_none]

/-- There are as many paths as there are distinct keys. -/
theorem Assigns.length_eq (h : Assigns parts paths) :
    paths.length = (parts.map (·.1)).eraseDups.length := by
  rw [← h.keys, List.length_map]

theorem Assigns.ne_nil (h : Assigns parts paths) (hparts : parts ≠ []) :
    paths ≠ [] := by
  rintro rfl
  obtain ⟨p, rest, rfl⟩ := List.exists_cons_of_ne_nil hparts
  have hkey : p.1 ∈ ((p :: rest).map (·.1)).eraseDups :=
    List.mem_eraseDups.mpr List.mem_cons_self
  rw [← h.keys] at hkey
  cases hkey

/-- The first argument that lacks a part. -/
def FirstLacking (args : List Text) (s : Text) : Prop :=
  ∃ before after, args = before ++ s :: after
    ∧ (∀ t ∈ before, ¬ Lacking t) ∧ Lacking s

theorem FirstLacking.mem (h : FirstLacking args s) : s ∈ args ∧ Lacking s := by
  obtain ⟨before, after, rfl, -, hs⟩ := h
  exact ⟨List.mem_append_right _ List.mem_cons_self, hs⟩

theorem FirstLacking.cons (hs : ¬ Lacking s) {t : Text}
    (h : FirstLacking args t) : FirstLacking (s :: args) t := by
  obtain ⟨before, after, rfl, hbefore, ht⟩ := h
  exact ⟨s :: before, after, rfl, List.forall_mem_cons.mpr ⟨hs, hbefore⟩, ht⟩

/-- All arguments are taken for what they say, or the first that lacks a part
is refused. -/
theorem mapM_fileArgument_cases (args : List Text) :
    ((∀ s ∈ args, ¬ Lacking s)
        ∧ ∃ parts, List.Forall₂ Says args parts
          ∧ args.mapM fileArgument = .ok parts)
      ∨ ∃ s, FirstLacking args s
        ∧ args.mapM fileArgument
          = .error (.fileArgument (Text.quoted s)) := by
  induction args with
  | nil => exact .inl ⟨fun s hs => absurd hs List.not_mem_nil, [], .nil, rfl⟩
  | cons s args ih =>
      rw [List.mapM_cons]
      by_cases hs : Lacking s
      · refine .inr ⟨s, ⟨[], args, rfl, fun t ht => absurd ht List.not_mem_nil,
          hs⟩, ?_⟩
        rw [hs.fileArgument_eq]
        rfl
      obtain ⟨p, hp⟩ := exists_says s
      rw [hp.fileArgument_eq hs]
      rcases ih with ⟨hargs, parts, hparts, hmap⟩ | ⟨t, ht, hmap⟩
      · refine .inl ⟨List.forall_mem_cons.mpr ⟨hs, hargs⟩, p :: parts,
          .cons hp hparts, ?_⟩
        rw [hmap]
        rfl
      · refine .inr ⟨t, ht.cons hs, ?_⟩
        rw [hmap]
        rfl

/-- The arguments stand for paths, or the first of them that lacks a part is
refused. -/
theorem fileArguments_cases (args : List Text) :
    ((∀ s ∈ args, ¬ Lacking s)
        ∧ ∃ parts paths, List.Forall₂ Says args parts ∧ Assigns parts paths
          ∧ fileArguments args = .ok paths)
      ∨ ∃ s, FirstLacking args s
        ∧ fileArguments args
          = .error (.fileArgument (Text.quoted s)) := by
  unfold fileArguments
  rcases mapM_fileArgument_cases args with
    ⟨hargs, parts, hparts, hmap⟩ | ⟨s, hs, hmap⟩
  · refine .inl ⟨hargs, parts, _, hparts, assigns_putPaths parts, ?_⟩
    rw [hmap]
    rfl
  · refine .inr ⟨s, hs, ?_⟩
    rw [hmap]
    rfl

end AuditTrail.Command
