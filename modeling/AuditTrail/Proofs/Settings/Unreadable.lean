/-
When the settings of a machine cannot be read.

All settings but two are texts, and any text will do for them. So there are
three ways to fail: the file of variables is there and cannot be opened, it
is no text, or a flag is set to a word that stands for none (`Unreadable`).
Reading the settings ends in exactly these faults (`read_error_iff`); the
last one complains about every such flag at once.
-/
import AuditTrail.Proofs.Files.Tree
import AuditTrail.Settings.Basic

namespace AuditTrail.Settings

variable {h : Host} {values : Bound} {e : Fault}

-- ================================================================ the flags

/-- The variables that hold flags. -/
def flagNames : List String :=
  ["AUDIT_EXCLUDE_SENSITIVE_HEADERS", "AUDIT_LOG_REQUEST_BODY"]

/-- The complaint about a variable whose word stands for no flag. -/
def unclearFlag (name : String) (word : Text) : Issue :=
  Flag.Error.unclear.issue name.toList (.text word)

/-- The complaint about one flag among the variables, if it is unclear. -/
def unclearFlag? (values : Bound) (name : String) : Option Issue :=
  ((find? values name).filter fun word => (Flag.ofWord? word).isNone).map
    (unclearFlag name)

/-- The complaints about the flags among the variables. -/
def unclearFlags (values : Bound) : List Issue :=
  flagNames.flatMap fun name => (unclearFlag? values name).toList

theorem flag_issues (values : Bound) (name : String) (absent : Bool) :
    (flag values name absent).2 = (unclearFlag? values name).toList := by
  unfold flag unclearFlag?
  cases find? values name with
  | none => rfl
  | some word =>
      cases hword : Flag.ofWord? word with
      | none =>
          simp only [Flag.ofValue, hword, Option.filter_some, Option.isNone_none,
            if_true, Option.map_some, Option.toList_some]
          rfl
      | some b =>
          simp only [Flag.ofValue, hword, Option.filter_some, Option.isNone_some,
            Bool.false_eq_true, if_false, Option.map_none, Option.toList_none]

theorem ofVariables_error_iff {r : Report} :
    ofVariables values = .error r ↔
      unclearFlags values ≠ [] ∧ r = ⟨title, unclearFlags values⟩ := by
  have hissues : (flag values "AUDIT_EXCLUDE_SENSITIVE_HEADERS" true).2 ++
      (flag values "AUDIT_LOG_REQUEST_BODY" true).2 = unclearFlags values := by
    rw [flag_issues, flag_issues]
    simp only [unclearFlags, flagNames, List.flatMap_cons, List.flatMap_nil,
      List.append_nil]
  unfold ofVariables
  dsimp only
  rw [hissues]
  split
  case h_1 hnone =>
    exact ⟨fun hok => (nomatch hok), fun herror => absurd hnone herror.1⟩
  case h_2 hsome =>
    rw [Except.error.injEq, eq_comm (b := r), and_iff_right hsome]

-- ============================================================== the settings

/-- What keeps the file of variables from being opened where there may be
one: it, or a directory on the way to it, is closed to the reader, or a link
on that way has a name that no file can have. -/
def closedErrors : List FileError := [.denied, .nameTooLong]

/-- Why the settings of a machine cannot be read. -/
inductive Unreadable (h : Host) : Fault → Prop where
  | closed {f : FileError}
      (hfile : (h.files.locate true h.directory envFile).bind h.files.contentAt
        = .error f)
      (hf : f ∈ closedErrors) : Unreadable h (.file f (Text.quoted envFile))
  /-- The octets of the file of variables are no text. -/
  | undecodable {place : Place} {octets : Bytes} {u : Utf8.DecodeError}
      (hplace : h.files.locate true h.directory envFile = .ok place)
      (hfile : h.files.item? place = some (.file octets))
      (hdecode : Utf8.decode octets = .error u) : Unreadable h (.decoding u)
  /-- Some flag is set to a word that stands for none. -/
  | unclear {file : Text} (hfile : envFileText h = .ok file)
      (hflags : unclearFlags (bound h file) ≠ []) :
      Unreadable h (.invalid ⟨title, unclearFlags (bound h file)⟩)

/-- Where the file of variables has no text, the settings cannot be read. -/
theorem unreadable_of_envFileText (herror : envFileText h = .error e) :
    Unreadable h e := by
  unfold envFileText at herror
  split at herror
  case h_1 hfile =>
    cases herror
    exact .closed hfile (by decide)
  case h_2 hfile =>
    cases herror
    exact .closed hfile (by decide)
  case h_3 => cases herror
  case h_4 octets hoctets =>
    split at herror
    case h_1 => cases herror
    case h_2 u hdecode =>
      cases herror
      cases hplace : h.files.locate true h.directory envFile with
      | error _ =>
          rw [hplace] at hoctets
          cases hoctets
      | ok place =>
          rw [hplace] at hoctets
          exact .undecodable hplace (Tree.contentAt_ok_iff.mp hoctets) hdecode

/-- Reading the settings ends in these faults and no others. -/
theorem read_error_iff : read h = .error e ↔ Unreadable h e := by
  constructor
  · intro herror
    unfold read at herror
    cases hfile : envFileText h with
    | error f =>
        rw [hfile] at herror
        cases herror
        exact unreadable_of_envFileText hfile
    | ok file =>
        rw [hfile] at herror
        cases hvalues : ofVariables (bound h file) with
        | ok s => simp only [bind, Except.bind, hvalues] at herror; cases herror
        | error r =>
            simp only [bind, Except.bind, hvalues] at herror
            obtain ⟨hflags, rfl⟩ := ofVariables_error_iff.mp hvalues
            cases herror
            exact .unclear hfile hflags
  · intro hunreadable
    unfold read
    cases hunreadable with
    | @closed f hfile hf =>
        have htext : envFileText h = .error (.file f (Text.quoted envFile)) := by
          simp only [closedErrors, List.mem_cons, List.not_mem_nil,
            or_false] at hf
          rcases hf with rfl | rfl
          · simp only [envFileText, hfile]
          · simp only [envFileText, hfile]
        rw [htext]
        rfl
    | @undecodable _ _ u hplace hitem hdecode =>
        have htext : envFileText h = .error (.decoding u) := by
          have hoctets := Tree.contentAt_ok_iff.mpr hitem
          simp only [envFileText, hplace, Except.bind, hoctets, hdecode]
        rw [htext]
        rfl
    | unclear hfile hflags =>
        have hvalues := ofVariables_error_iff.mpr ⟨hflags, rfl⟩
        simp only [bind, Except.bind, hfile, hvalues]

end AuditTrail.Settings
