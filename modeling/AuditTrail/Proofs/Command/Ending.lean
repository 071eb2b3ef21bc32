/-
How the program ends.

A run has two parts. First reporting is set up (`setUp`), and what fails
there is handled by nothing: the names that are no thresholds, and settings
that cannot be read where they are asked for the level (`Unreported`). Then
the command is performed, and whatever fails there is printed and ends the
program with code 1.

The reports of a command have no part in how it ends, so a command has an
outcome of its own (`Task.outcome`), the same for every threshold and whether
or not the settings were read before (`perform_yields`). The ending of a run
follows from the two parts (`run_ending`).
-/
import AuditTrail.Command.Run
import AuditTrail.Proofs.Results
import AuditTrail.Proofs.Settings.Unreadable

namespace AuditTrail.Command

variable {h : Host} {now : DateTime} {torn : Torn} {stamp : Text}
  {level : Option Text} {limit : Nat} {known : Option Settings} {c : Task} {e : Fault}

-- ========================================================= setting up reports

/-- The level that an option asks for; an empty one asks for none. -/
def asked (level : Option Text) : Option Text :=
  level.filter fun name => !name.isEmpty

/-- The names that stand for no threshold are the only ones that fail. -/
theorem threshold_error_iff {name : Text} :
    threshold name = .error e ↔
      notThresholds.lookup (name.flatMap upperChar) = some e := by
  unfold threshold
  dsimp only
  split
  case h_1 f hname => rw [hname, Except.error.injEq, Option.some.injEq]
  case h_2 hname =>
    rw [hname]
    exact ⟨fun herror => (nomatch herror), fun hsome => (nomatch hsome)⟩

/-- What is known once reporting is set up: the threshold, and the settings if
they were read for it. -/
structure Reporting where
  limit : Nat
  known : Option Settings

/-- Sets up reporting, of the level that is asked for or of that in the
settings. -/
def setUp (h : Host) (level : Option Text) : Except Fault Reporting :=
  match asked level with
  | some name => do .ok ⟨← threshold name, none⟩
  | none => do
    let s ← Settings.read h
    .ok ⟨← threshold s.logLevel, some s⟩

/-- What is printed meanwhile. -/
def warnedBefore (h : Host) (level : Option Text) : Text :=
  match asked level with
  | some _ => []
  | none => plainComplaints h

/-- The faults in which setting up reporting ends. -/
inductive Unreported (h : Host) (level : Option Text) : Fault → Prop where
  /-- The level that is asked for is no threshold. -/
  | requested {name : Text} {e : Fault} (hasked : asked level = some name)
      (hname : notThresholds.lookup (name.flatMap upperChar) = some e) :
      Unreported h level e
  /-- None is asked for, and the settings cannot be read. -/
  | settings {e : Fault} (hasked : asked level = none)
      (hread : Settings.Unreadable h e) : Unreported h level e
  /-- None is asked for, and that of the settings is no threshold. -/
  | configured {s : Settings} {e : Fault} (hasked : asked level = none)
      (hread : Settings.read h = .ok s)
      (hname : notThresholds.lookup (s.logLevel.flatMap upperChar) = some e) :
      Unreported h level e

theorem Unreported.setUp_eq (he : Unreported h level e) :
    setUp h level = .error e := by
  unfold setUp
  cases he with
  | requested hasked hname =>
      simp only [hasked, threshold_error_iff.mpr hname, bind, Except.bind]
  | settings hasked hread =>
      simp only [hasked, Settings.read_error_iff.mpr hread, bind, Except.bind]
  | configured hasked hread hname =>
      simp only [hasked, hread, threshold_error_iff.mpr hname, bind, Except.bind]

/-- Reporting is set up, with no other settings than those that hold, or ends
in one of these faults. -/
theorem setUp_cases (h : Host) (level : Option Text) :
    (∃ u, setUp h level = .ok u ∧
      ∀ s, u.known = some s → Settings.read h = .ok s) ∨
      ∃ e, Unreported h level e := by
  unfold setUp
  cases hasked : asked level with
  | some name =>
      cases hname : threshold name with
      | error e => exact .inr ⟨e, .requested hasked (threshold_error_iff.mp hname)⟩
      | ok limit =>
          simp only [hname, bind, Except.bind]
          exact .inl ⟨_, rfl, fun s hs => (nomatch hs)⟩
  | none =>
      cases hread : Settings.read h with
      | error e =>
          exact .inr ⟨e, .settings hasked (Settings.read_error_iff.mp hread)⟩
      | ok s =>
          cases hname : threshold s.logLevel with
          | error e =>
              exact .inr
                ⟨e, .configured hasked hread (threshold_error_iff.mp hname)⟩
          | ok limit =>
              simp only [hname, bind, Except.bind]
              refine .inl ⟨_, rfl, fun t ht => ?_⟩
              exact congrArg Except.ok (Option.some.inj ht)

/-- A run sets up reporting and then performs its command. -/
theorem runCommand_eq (h : Host) (now : DateTime) (torn : Torn) (stamp : Text)
    (level : Option Text) (c : Task) :
    runCommand h now torn stamp level c =
      match setUp h level with
      | .error e => ⟨[], warnedBefore h level, .escaped e⟩
      | .ok u =>
        let f := finish (perform h now torn stamp u.limit u.known c)
        { f with err := warnedBefore h level ++ f.err } := by
  unfold runCommand setUp warnedBefore
  split
  case h_1 a rest =>
    have hasked : asked (some (a :: rest)) = some (a :: rest) := rfl
    simp only [hasked]
    cases threshold (a :: rest) with
    | error e => rfl
    | ok limit => rfl
  case h_2 hlevel =>
    have hasked : asked level = none := by
      cases level with
      | none => rfl
      | some name =>
          cases name with
          | nil => rfl
          | cons a rest => exact absurd rfl (hlevel a rest)
    simp only [hasked]
    cases Settings.read h with
    | error e => rfl
    | ok s =>
        simp only [bind, Except.bind]
        cases threshold s.logLevel with
        | error e => rfl
        | ok limit => rfl

-- ========================================================= outcomes of commands

/-- The operation that records some files' fingerprints. -/
def recordFiles (paths : List (Text × Text)) : Call :=
  .fileInfos (.map (paths.map fun p => (.text p.1, .text p.2)))

/-- The record that some files' fingerprints are put into. -/
def filesRecord (h : Host) (now : DateTime) (s : Settings) :
    Except Fault Record := do
  let cluster ← Cluster.ofSettings h s
  Record.start (.term (.category .complianceExternalConfig)) (some cluster)
    (.term (.origin .localNode)) .null now

/-- The record of some files' fingerprints as it is printed. -/
def fingerprints (h : Host) (now : DateTime) (torn : Torn) (s : Settings)
    (paths : List (Text × Text)) (layout : Layout) : Except Fault Text := do
  let r ← filesRecord h now s
  let o := (recordFiles paths).outcome h r.node
  match o.fault with
  | some e => .error e
  | none => do
    let shown ← render layout (r.putAll o.writes) torn
    .ok (shown ++ ['\n'])

/-- What a command prints, or the fault that ends it. -/
def Task.outcome (h : Host) (now : DateTime) (torn : Torn) :
    Task → Except Fault Text
  | .fingerprint files layout => do
    let paths ← fileArguments files
    fingerprints h now torn (← Settings.read h) paths layout
  | .filter (some path) asJson => do
    printFilter (← Filter.load h (Path.ofText path)).1 asJson
  | .filter none asJson => do
    printFilter (← Filter.effective h).1 asJson

/-- A command that prints what an outcome says, or nothing before the fault
that it says. -/
inductive Yields : Except Fault Text → Printed → Prop
  | printed {shown err : Text} : Yields (.ok shown) ⟨shown, err, none⟩
  | failed {e : Fault} {err : Text} : Yields (.error e) ⟨[], err, some e⟩

theorem Yields.withErr {x : Except Fault Text} {r : Printed} (hr : Yields x r)
    (err : Text) : Yields x { r with err := err } := by
  cases hr with
  | printed => exact .printed
  | failed => exact .failed

theorem printFingerprints_yields (h : Host) (now : DateTime) (torn : Torn)
    (log : List LogEntry → Text) (s : Settings) (paths : List (Text × Text))
    (layout : Layout) :
    Yields (fingerprints h now torn s paths layout)
      (printFingerprints h now torn log s paths layout) := by
  unfold fingerprints printFingerprints recordFiles
  dsimp only
  split
  case h_1 e hstart =>
    rw [show filesRecord h now s = .error e from hstart]
    exact .failed
  case h_2 r hstart =>
    rw [show filesRecord h now s = .ok r from hstart]
    simp only [bind, Except.bind]
    generalize (Call.fileInfos _).outcome h r.node = o
    cases o.fault with
    | some e => exact .failed
    | none =>
        simp only
        cases render layout (r.putAll o.writes) torn with
        | error e => exact .failed
        | ok shown => exact .printed

/-- The filter that was found, as it is printed; the reports about it do not
matter. -/
theorem printFilter_yields (log : List LogEntry → Text) (asJson : Bool)
    (found : Except Fault (Filter × List LogEntry)) :
    Yields (do printFilter (← found).1 asJson)
      (match found with
      | .error e => ⟨[], [], some e⟩
      | .ok (f, logs) =>
        match printFilter f asJson with
        | .ok s => ⟨s, log logs, none⟩
        | .error e => ⟨[], log logs, some e⟩) := by
  cases found with
  | error e => exact .failed
  | ok r =>
      simp only [bind, Except.bind]
      cases printFilter r.1 asJson with
      | error e => exact .failed
      | ok shown => exact .printed

/-- What is printed with the settings that are known, or else with those that
hold. -/
def withSettings (h : Host) (warned : Text) (known : Option Settings)
    (next : Settings → Printed) : Printed :=
  match known with
  | some s => next s
  | none =>
    match Settings.read h with
    | .error e => ⟨[], warned, some e⟩
    | .ok s => { next s with err := warned ++ (next s).err }

theorem withSettings_yields (warned : Text)
    (hknown : ∀ s, known = some s → Settings.read h = .ok s)
    {x : Settings → Except Fault Text} {next : Settings → Printed}
    (hnext : ∀ s, Yields (x s) (next s)) :
    Yields (do x (← Settings.read h)) (withSettings h warned known next) := by
  unfold withSettings
  cases known with
  | some s =>
      rw [hknown s rfl]
      exact hnext s
  | none =>
      cases Settings.read h with
      | error e => exact .failed
      | ok s => exact (hnext s).withErr _

/-- A command has the same outcome for every threshold, and whether or not the
settings are known before. -/
theorem perform_yields (now : DateTime) (torn : Torn) (stamp : Text)
    (limit : Nat) (c : Task)
    (hknown : ∀ s, known = some s → Settings.read h = .ok s) :
    Yields (c.outcome h now torn) (perform h now torn stamp limit known c) := by
  cases c with
  | fingerprint files layout =>
      unfold perform Task.outcome
      dsimp only
      cases fileArguments files with
      | error e => exact .failed
      | ok paths =>
          exact withSettings_yields _ hknown fun s =>
            printFingerprints_yields h now torn _ s paths layout
  | filter path asJson =>
      cases path with
      | some path => exact printFilter_yields _ asJson _
      | none =>
          unfold perform Task.outcome Filter.effective
          dsimp only
          rw [bind_assoc]
          exact withSettings_yields _ hknown fun s => printFilter_yields _ asJson _

-- ================================================================== endings

/-- How the program ends after a command with some outcome. -/
inductive Ended : Except Fault Text → Finished → Prop
  | printed {shown err : Text} : Ended (.ok shown) ⟨shown, err, .exit 0 false⟩
  | failed {e : Fault} {err : Text}
      (hmessage : "Error: ".toList ++ e.message ++ ['\n'] <:+ err) :
      Ended (.error e) ⟨[], err, .exit 1 false⟩

theorem Yields.finish {x : Except Fault Text} {r : Printed} (hr : Yields x r)
    (warned : Text) :
    Ended x
      { Command.finish r with err := warned ++ (Command.finish r).err } := by
  cases hr with
  | printed => exact .printed
  | @failed e err =>
      refine .failed ⟨warned ++ err, ?_⟩
      simp only [Command.finish, List.append_assoc]

theorem Ended.ne_escaped {x : Except Fault Text} {f : Finished}
    (hf : Ended x f) (e : Fault) : f.ending ≠ .escaped e := by
  cases hf with
  | printed => exact Ending.noConfusion
  | failed => exact Ending.noConfusion

/-- What fails while reporting is set up ends the program. -/
theorem Unreported.runCommand_eq (he : Unreported h level e) (now : DateTime)
    (torn : Torn) (stamp : Text) (c : Task) :
    runCommand h now torn stamp level c
      = ⟨[], warnedBefore h level, .escaped e⟩ := by
  rw [Command.runCommand_eq, he.setUp_eq]

/-- Else the program ends as its command does. -/
theorem runCommand_ended (hlevel : ∀ e, ¬ Unreported h level e)
    (now : DateTime) (torn : Torn) (stamp : Text) (c : Task) :
    Ended (c.outcome h now torn) (runCommand h now torn stamp level c) := by
  rw [runCommand_eq]
  rcases setUp_cases h level with ⟨u, hu, hknown⟩ | ⟨e, he⟩
  · rw [hu]
    exact (perform_yields now torn stamp u.limit c hknown).finish _
  · exact absurd he (hlevel e)

theorem run_of_task {args : List Text} {i : Invocation}
    (hi : invocation args = .ok i) (hc : i.task = some c) :
    run h now torn stamp args = runCommand h now torn stamp i.logLevel c := by
  unfold run
  rw [hi]
  simp only [hc]

/-- Arguments that are accepted but name no command show how the program is
used. A command ends in a fault that nothing handles exactly where reporting
cannot be set up for it. Everywhere else the program ends with code 0 and what
the command prints, or with code 1 and the message of the command's fault. -/
theorem run_ending {args : List Text} {i : Invocation}
    (hi : invocation args = .ok i) (h : Host) (now : DateTime) (torn : Torn)
    (stamp : Text) :
    (i.task = none → run h now torn stamp args = ⟨help, [], .exit 1 false⟩) ∧
    ∀ c, i.task = some c →
      (∀ e, (run h now torn stamp args).ending = .escaped e ↔
        Unreported h i.logLevel e) ∧
      ((∀ e, ¬ Unreported h i.logLevel e) →
        Ended (c.outcome h now torn) (run h now torn stamp args)) := by
  refine ⟨fun hnone => ?_, fun c hc => ?_⟩
  · unfold run
    rw [hi]
    simp only [hnone]
  rw [run_of_task hi hc]
  refine ⟨fun e => ⟨fun hescaped => ?_, fun he => ?_⟩,
    fun hlevel => runCommand_ended hlevel now torn stamp c⟩
  · by_cases hlevel : ∃ f, Unreported h i.logLevel f
    · obtain ⟨f, hf⟩ := hlevel
      rw [hf.runCommand_eq] at hescaped
      cases hescaped
      exact hf
    · have hended := runCommand_ended (not_exists.mp hlevel) now torn stamp c
      exact absurd hescaped (hended.ne_escaped e)
  · rw [he.runCommand_eq]

/-- A machine with one variable in its environment. -/
def hostSetting (name value : String) : Host :=
  ⟨.empty, [], [], [], [(name.toList, value.toList)], [], fun _ => .unknown,
    []⟩

theorem hostSetting_unreadable :
    ∃ e, Settings.Unreadable (hostSetting "AUDIT_LOG_REQUEST_BODY" "bad") e :=
  ⟨_, .unclear rfl (by decide +kernel)⟩

/-- Settings that cannot be read end a command with a message where a level is
asked for. -/
theorem run_ending_asked :
    ∃ e, Settings.Unreadable (hostSetting "AUDIT_LOG_REQUEST_BODY" "bad") e ∧
      Ended (.error e) (run (hostSetting "AUDIT_LOG_REQUEST_BODY" "bad") default
        .none [] ["--log-level=INFO".toList, "filter".toList]) := by
  obtain ⟨e, he⟩ := hostSetting_unreadable
  have hi : invocation ["--log-level=INFO".toList, "filter".toList] =
      .ok ⟨some "INFO".toList, some (.filter none false), []⟩ :=
    eq_ok_of_toOption (by decide +kernel)
  have hended := ((run_ending hi (hostSetting "AUDIT_LOG_REQUEST_BODY" "bad")
    default .none []).2 _ rfl).2 fun f hf => by
      cases hf with
      | requested hasked hname =>
          cases hasked
          have hnone : notThresholds.lookup
              ("INFO".toList.flatMap upperChar) = none := by rfl
          rw [hnone] at hname
          cases hname
      | settings hasked => cases hasked
      | configured hasked => cases hasked
  have houtcome : (Task.filter none false).outcome
      (hostSetting "AUDIT_LOG_REQUEST_BODY" "bad") default .none
      = .error e := by
    unfold Task.outcome Filter.effective
    rw [Settings.read_error_iff.mpr he]
    rfl
  rw [houtcome] at hended
  exact ⟨e, he, hended⟩

/-- Where none is, they do not. -/
theorem run_escapes :
    ¬ ∀ (h : Host) (now : DateTime) (torn : Torn) (stamp : Text)
        (args : List Text) (i : Invocation), invocation args = .ok i →
      ∃ code, code ≤ 1 ∧ (run h now torn stamp args).ending = .exit code false := by
  intro hall
  have hi : invocation ["filter".toList] =
      .ok ⟨none, some (.filter none false), []⟩ :=
    eq_ok_of_toOption (by decide +kernel)
  obtain ⟨e, he⟩ := hostSetting_unreadable
  obtain ⟨code, -, hcode⟩ := hall _ default .none [] _ _ hi
  have hescapes : Unreported (hostSetting "AUDIT_LOG_REQUEST_BODY" "bad") none e :=
    .settings rfl he
  rw [run_of_task hi rfl, hescapes.runCommand_eq] at hcode
  cases hcode

end AuditTrail.Command
