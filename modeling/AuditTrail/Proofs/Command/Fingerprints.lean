/-
What the fingerprint command makes of its arguments.

The arguments stand for paths under distinct keys (`FileArguments.lean`). A
path leads to a file that has a fingerprint, or it is left out (`Accounted`);
so what the record lacks of the keys is what was left out, and that many are
told of at the end of the reports (`skippedNote_suffix_iff`). Whatever the
files are, the record is laid out: fingerprints are texts, and the rest of
it comes from the settings and the clock (`exists_printFingerprints`). So
once there are settings and an address for the node, it is only the
arguments that can be wrong, or half of a surrogate pair in the record that
keeps it from being printed (`fingerprint_accounts`).
-/
import AuditTrail.Proofs.Command.Ending
import AuditTrail.Proofs.Command.FileArguments
import AuditTrail.Proofs.Command.Rendering
import AuditTrail.Proofs.Files.Fingerprint
import AuditTrail.Proofs.Record.Timestamps

namespace AuditTrail.Command

open Fingerprint (Prints Missed report)
open Json (Readable)

variable {h : Host} {now : DateTime} {torn : Torn} {stamp key file : Text}
  {limit k n : Nat} {known : Option Settings} {settings : Settings} {layout : Layout}
  {paths : List (Text × Text)} {prints : List Fingerprint}
  {logs : List LogEntry} {r : Record}

-- ================================================================== the files

/-- What is recorded of the files under some keys, and what is reported of
those left out. A file that has a fingerprint is recorded in its turn, and
only such a one is. -/
inductive Accounted (h : Host) :
    List (Text × Text) → List Fingerprint → List LogEntry → Prop
  | nil : Accounted h [] [] []
  | recorded {key file : Text} {f : Fingerprint} {paths : List (Text × Text)}
      {prints : List Fingerprint} {logs : List LogEntry}
      (hf : Prints h key file f) (hrest : Accounted h paths prints logs) :
      Accounted h ((key, file) :: paths) (f :: prints) logs
  | leftOut {key file : Text} {cause : Option Fault}
      {paths : List (Text × Text)} {prints : List Fingerprint}
      {logs : List LogEntry} (hnone : ∀ f, ¬ Prints h key file f)
      (hcause : Missed h file cause) (hrest : Accounted h paths prints logs) :
      Accounted h ((key, file) :: paths) prints (report key file cause :: logs)

/-- What has a fingerprint is not missed. -/
theorem not_prints_of_missed {cause : Option Fault} (hcause : Missed h file cause)
    (f : Fingerprint) : ¬ Prints h key file f := by
  intro hf
  have hsame := hf.take_eq.symm.trans (hcause.take_eq key)
  cases cause with
  | none => cases hsame
  | some e => cases hsame

/-- Every path is accounted for in one way or the other. -/
theorem exists_accounted (h : Host) (paths : List (Text × Text)) :
    ∃ prints logs, Accounted h paths prints logs
      ∧ Fingerprint.ofValue h (Fingerprint.mapping paths)
        = .ok (prints, logs) := by
  show ∃ prints logs, _
    ∧ Fingerprint.ofEntries h (paths.map fun e => (.text e.1, .text e.2)) = _
  induction paths with
  | nil => exact ⟨[], [], .nil, rfl⟩
  | cons e paths ih =>
      obtain ⟨key, file⟩ := e
      obtain ⟨prints, logs, hrest, hentries⟩ := ih
      rcases Fingerprint.prints_or_missed h key file with ⟨f, hf⟩ | ⟨cause, hcause⟩
      · refine ⟨f :: prints, logs, .recorded hf hrest, ?_⟩
        rw [List.map_cons, Fingerprint.ofEntries, hf.ofEntry_eq, hentries]
        rfl
      · refine ⟨prints, _, .leftOut (not_prints_of_missed hcause) hcause hrest, ?_⟩
        rw [List.map_cons, Fingerprint.ofEntries, hcause.ofEntry_eq key, hentries]
        rfl

/-- There is a report for each path that is not recorded. -/
theorem Accounted.length_eq (ha : Accounted h paths prints logs) :
    logs.length + prints.length = paths.length := by
  induction ha with
  | nil => rfl
  | recorded _ _ ih | leftOut _ _ _ ih =>
      simp only [List.length_cons]
      omega

-- ================================================================= the record

/-- The command's record can be started with any settings that give the node
an address, at any time that has a date. -/
theorem exists_filesRecord {i : Instant} (hclock : now.toInstant? = .ok i)
    {address : Text} (haddress : Cluster.addressOf h settings = .ok address) :
    ∃ cluster r, Cluster.ofSettings h settings = .ok cluster
      ∧ Record.start (.term (.category .complianceExternalConfig))
        (some cluster) (.term (.origin .localNode)) .null now = .ok r
      ∧ filesRecord h now settings = .ok r := by
  obtain ⟨cluster, hcluster, htexts⟩ : ∃ cluster,
      Cluster.ofSettings h settings = .ok cluster
        ∧ ∀ v ∈ cluster.parts, FieldKind.text.accepts v = true := by
    unfold Cluster.ofSettings
    rw [haddress]
    exact ⟨_, rfl, by simp [Cluster.parts, FieldKind.accepts]⟩
  have hidentity : Record.Identity.Of
      ⟨.complianceExternalConfig, cluster, i⟩
      (.term (.category .complianceExternalConfig)) (some cluster) now := by
    simp only [Cluster.parts, List.forall_mem_cons] at htexts
    obtain ⟨hid, haddress, hhost, hnode, hname, -⟩ := htexts
    refine ⟨rfl, rfl, hclock, ?_⟩
    simp only [Record.Identity.writes, List.forall_mem_cons]
    exact ⟨rfl, rfl, rfl, haddress, hid, hhost, hnode, hname,
      fun _ hw => absurd hw List.not_mem_nil⟩
  obtain ⟨r, hr⟩ : ∃ r, Record.start
      (.term (.category .complianceExternalConfig)) (some cluster)
      (.term (.origin .localNode)) .null now = .ok r := by
    unfold Record.start
    rw [Record.initial_eq_ok hidentity rfl rfl]
    exact ⟨_, rfl⟩
  refine ⟨cluster, r, hcluster, hr, ?_⟩
  rw [filesRecord, hcluster]
  exact hr

/-- Without an address there is no record. -/
theorem filesRecord_of_addressOf {e : Fault}
    (he : Cluster.addressOf h settings = .error e) :
    filesRecord h now settings = .error e := by
  rw [filesRecord, Cluster.ofSettings, he]
  rfl

/-- A new record has no list of files, so such a list comes last in it. -/
theorem fields_putFiles {category origin layer : Value}
    {cluster : Option Cluster}
    (hr : Record.start category cluster origin layer now = .ok r) (v : Value) :
    (r.putAll [(.complianceFileInfos, v)]).fields
      = r.fields ++ [(.complianceFileInfos, v)] := by
  have hnew : Field.complianceFileInfos ∉ r.fields.map (·.1) := by
    obtain ⟨first, hfirst, rfl⟩ := Record.exists_of_start hr
    intro hmem
    obtain ⟨e, he, hname⟩ := List.mem_map.mp hmem
    have hstart : e.1 ∈ Record.startFields :=
      Record.initial_fields first hfirst e
        ((Record.mem_of_mem_putAll he).resolve_right List.not_mem_nil)
    rw [hname] at hstart
    exact absurd hstart (by decide)
  show Record.putField _ v r.fields = _
  rw [Record.putField_eq, Keyed.put_of_notMem hnew]

theorem outcome_recordFiles (node : Value) (hpaths : paths ≠ [])
    (hvalue : Fingerprint.ofValue h (Fingerprint.mapping paths)
      = .ok (prints, logs)) :
    (recordFiles paths).outcome h node
      = ⟨[(.complianceFileInfos, .list (prints.map Fingerprint.toValue))],
          none, logs⟩ := by
  have htruth : (Fingerprint.mapping paths).truth = .ok true :=
    Value.truth_eq_true_iff.mpr
      (Value.truthy_map (mt List.map_eq_nil_iff.mp hpaths))
  show Call.writeFiles h (Fingerprint.mapping paths) = _
  rw [Call.writeFiles, htruth, hvalue]

/-- Fingerprints are texts under texts, and read as they are. -/
theorem mapTexts_prints (prints : List Fingerprint) :
    (Value.list (prints.map Fingerprint.toValue)).mapTexts id
      = .list (prints.map Fingerprint.toValue) := by
  rw [Value.mapTexts, Value.mapItemTexts_eq, List.map_map]
  rfl

/-- The record that the command prints. -/
def printedRecord (h : Host) (now : DateTime) (s : Settings)
    (paths : List (Text × Text)) : Except Fault Record :=
  (filesRecord h now s).map fun r => r.apply h (recordFiles paths)

/-- Without a record the command prints nothing. -/
theorem printFingerprints_of_error {e : Fault}
    (he : filesRecord h now settings = .error e) (torn : Torn)
    (log : List LogEntry → Text) (paths : List (Text × Text))
    (layout : Layout) :
    printFingerprints h now torn log settings paths layout
      = ⟨[], [], some e⟩ := by
  unfold filesRecord at he
  unfold printFingerprints
  dsimp only
  rw [he]

/-- The command's record is laid out in every layout, and tells of all files
that have a fingerprint; it is printed if it can be. -/
theorem exists_printFingerprints {i : Instant}
    (hclock : now.toInstant? = .ok i) {address : Text}
    (haddress : Cluster.addressOf h settings = .ok address) (hpaths : paths ≠ [])
    (hvalue : Fingerprint.ofValue h (Fingerprint.mapping paths)
      = .ok (prints, logs))
    (torn : Torn) (log : List LogEntry → Text) (layout : Layout) :
    ∃ r shown, printedRecord h now settings paths = .ok r
      ∧ layOut layout r .none = .ok shown
      ∧ Tells layout shown Field.complianceFileInfos.wire
        (.list (prints.map Fingerprint.toValue))
      ∧ (∀ e, render layout r torn = .error e →
        printFingerprints h now torn log settings paths layout
          = ⟨[], log logs, some e⟩)
      ∧ ∀ s, render layout r torn = .ok s →
        printFingerprints h now torn log settings paths layout
          = ⟨s ++ ['\n'],
            log logs ++ skippedLine (paths.length - prints.length), none⟩ := by
  obtain ⟨cluster, r, -, hr, hstarted⟩ := exists_filesRecord hclock haddress
  have houtcome := outcome_recordFiles r.node hpaths hvalue
  have happlied : r.apply h (recordFiles paths) = r.putAll
      [(.complianceFileInfos, .list (prints.map Fingerprint.toValue))] := by
    show r.putAll ((recordFiles paths).outcome h r.node).writes = _
    rw [houtcome]
  have hget := r.get?_putAll_singleton .complianceFileInfos
    (.list (prints.map Fingerprint.toValue))
  have hnodup : ((r.run h [recordFiles paths]).fields.map (·.1)).Nodup := by
    obtain ⟨first, -, rfl⟩ := Record.exists_of_start hr
    exact Record.nodup_run (Record.nodup_putAll (r := ⟨[]⟩) List.nodup_nil)
  have hreadable : ∀ n, ∀ e ∈ (r.run h [recordFiles paths]).fields,
      Readable (n + 2) e.2 := fun n =>
    Record.readable_run hr (List.forall_mem_singleton.mpr trivial)
  rw [show r.run h [recordFiles paths] = _ from happlied] at hnodup hreadable
  obtain ⟨shown, hshown, htells⟩ :=
    exists_layOut (fields_putFiles hr _) hget hnodup hreadable layout
  rw [mapTexts_prints] at htells
  refine ⟨_, shown, ?_, hshown, htells, ?_⟩
  · rw [printedRecord, hstarted]
    exact congrArg Except.ok happlied
  · unfold filesRecord at hstarted
    unfold recordFiles at houtcome
    unfold printFingerprints
    constructor
    · intro e he
      simp only [hstarted, houtcome, he]
    · intro s hs
      simp only [hstarted, houtcome, hs, recorded, hget, List.length_map]

-- ================================================================ the reports

/-- The line about files that were left out. -/
def skippedNote (count : Nat) : Text :=
  "Skipped ".toList ++ Text.ofNat count ++ " unreadable file(s)\n".toList

theorem skippedLine_of_pos (hk : 0 < k) : skippedLine k = skippedNote k :=
  if_neg (Nat.ne_of_gt hk)

/-- A note that ends another one is the same: it begins with the only capital
letter. -/
theorem eq_of_skippedNote_suffix (hsuffix : skippedNote n <:+ skippedNote k) :
    n = k := by
  obtain ⟨before, hbefore⟩ := hsuffix
  cases before with
  | nil =>
      have hdigits : Text.ofNat n = Text.ofNat k :=
        List.append_cancel_left (List.append_cancel_right hbefore)
      have hvalue := Json.digitsValue?_ofNat n
      rw [hdigits, Json.digitsValue?_ofNat] at hvalue
      exact (Option.some.inj hvalue).symm
  | cons c before =>
      have hrest : before ++ skippedNote n
          = "kipped ".toList ++ Text.ofNat k
            ++ " unreadable file(s)\n".toList := (List.cons.inj hbefore).2
      have hmem : 'S' ∈ before ++ skippedNote n :=
        List.mem_append_right _ List.mem_cons_self
      rw [hrest, List.mem_append, List.mem_append] at hmem
      rcases hmem with (hmem | hmem) | hmem
      · exact absurd hmem (by decide)
      · exact absurd (Json.isDigit_of_mem_ofNat hmem) (by decide)
      · exact absurd hmem (by decide)

theorem skippedNote_ne_nil (n : Nat) : skippedNote n ≠ [] :=
  List.cons_ne_nil _ _

/-- A complaint about the file of variables ends with the number of a line. -/
theorem exists_digit_suffix (stamp severity source : Text) (m : Nat) :
    ∃ d : Char, d.isDigit = true
      ∧ [d, '\n'] <:+ line stamp severity source (flawedLine m) := by
  have hne : Text.ofNat m ≠ [] := Nat.toDigits_ne_nil
  refine ⟨(Text.ofNat m).getLast hne,
    Json.isDigit_of_mem_ofNat (List.getLast_mem hne), ?_⟩
  obtain ⟨digits, hdigits⟩ : ∃ digits,
      Text.ofNat m = digits ++ [(Text.ofNat m).getLast hne] :=
    ⟨_, (List.dropLast_append_getLast hne).symm⟩
  generalize (Text.ofNat m).getLast hne = d at hdigits
  unfold line flawedLine
  rw [hdigits]
  exact ⟨stamp ++ ' ' :: severity ++ ' ' :: source ++ ':' :: ' ' ::
    ("python-dotenv could not parse statement starting at line ".toList
      ++ digits), by simp⟩

/-- So none of them reads like a note. -/
theorem not_skippedNote_suffix_complaints (h : Host) :
    ¬ skippedNote n <:+ complaints stamp limit h := by
  unfold complaints
  split
  case isFalse => exact fun hs => skippedNote_ne_nil n (List.suffix_nil.mp hs)
  case isTrue =>
    induction Settings.flawedLines h using List.reverseRecOn with
    | nil => exact fun hs => skippedNote_ne_nil n (List.suffix_nil.mp hs)
    | append_singleton ms m _ =>
        intro hs
        obtain ⟨d, hd, hdigit⟩ := exists_digit_suffix stamp
          Severity.warning.label "dotenv.main".toList m
        have hbracket : [')', '\n'] <:+ skippedNote n :=
          (show [')', '\n'] <:+ " unreadable file(s)\n".toList by decide).trans
            (List.suffix_append _ _)
        have hlast := hdigit.trans (List.suffix_append
          (ms.flatMap fun n => line stamp Severity.warning.label
            "dotenv.main".toList (flawedLine n)) _)
        rw [List.flatMap_append, List.flatMap_singleton] at hs
        have hsame := (List.suffix_of_suffix_length_le (hbracket.trans hs)
          hlast (Nat.le_refl 2)).eq_of_length rfl
        cases hsame
        exact absurd hd (by decide)

/-- What is reported last is how many files were left out, and it is reported
if there are any. -/
theorem skippedNote_suffix_iff {before : Text}
    (hbefore : before = [] ∨ before = complaints stamp limit h)
    (hlogs : k = 0 → logs = []) :
    skippedNote n <:+ before ++ (reported stamp limit logs ++ skippedLine k)
      ↔ n = k ∧ 0 < k := by
  rcases Nat.eq_zero_or_pos k with hk | hk
  · refine iff_of_false (fun hs => ?_) fun hpos => ?_
    · have hnone : before ++ (reported stamp limit logs ++ skippedLine k)
          = before := by
        rw [hlogs hk, hk]
        exact List.append_nil before
      rw [hnone] at hs
      rcases hbefore with rfl | rfl
      · exact skippedNote_ne_nil n (List.suffix_nil.mp hs)
      · exact not_skippedNote_suffix_complaints h hs
    · exact absurd hk (Nat.ne_of_gt hpos.2)
  · have hnote : skippedNote k
        <:+ before ++ (reported stamp limit logs ++ skippedLine k) := by
      rw [skippedLine_of_pos hk, ← List.append_assoc]
      exact List.suffix_append _ _
    constructor
    · intro hs
      rcases List.suffix_or_suffix_of_suffix hs hnote with hsame | hsame
      · exact ⟨eq_of_skippedNote_suffix hsame, hk⟩
      · exact ⟨(eq_of_skippedNote_suffix hsame).symm, hk⟩
    · rintro ⟨rfl, -⟩
      exact hnote

-- ================================================================= the command

/-- The settings that a command goes by: those that were read before, or else
those that hold. -/
def inForce (h : Host) (known : Option Settings) : Except Fault Settings :=
  known.elim (Settings.read h) .ok

/-- With settings a command does what it does with them; only complaints may
come before. -/
theorem withSettings_eq (hsettings : inForce h known = .ok settings)
    (warned : Text) (next : Settings → Printed) :
    ∃ before, (before = [] ∨ before = warned)
      ∧ withSettings h warned known next
        = { next settings with err := before ++ (next settings).err } := by
  unfold inForce at hsettings
  unfold withSettings
  cases known with
  | some s =>
      cases hsettings
      exact ⟨[], .inl rfl, rfl⟩
  | none =>
      have hread : Settings.read h = .ok settings := hsettings
      rw [hread]
      exact ⟨warned, .inr rfl, rfl⟩

/-- Arguments that are refused end the command before it does anything. -/
theorem perform_of_refused {args : List Text} {e : Fault}
    (he : fileArguments args = .error e) :
    perform h now torn stamp limit known (.fingerprint args layout)
      = ⟨[], [], some e⟩ := by
  unfold perform
  dsimp only
  rw [he]

/-- A fault of a command is told of, and the program ends with code 1. -/
theorem ended_of_fault (err : Text) (e : Fault) :
    Ended (.error e) (finish ⟨[], err, some e⟩) := by
  exact .failed ⟨err, by simp⟩

section Performed

variable {args : List Text} (hok : fileArguments args = .ok paths)
  (hsettings : inForce h known = .ok settings)

include hok hsettings

/-- What the command prints with the settings is printed; only complaints may
come before. -/
theorem perform_eq (now : DateTime) (torn : Torn) (stamp : Text) (limit : Nat)
    (layout : Layout) :
    ∃ before, (before = [] ∨ before = complaints stamp limit h)
      ∧ perform h now torn stamp limit known (.fingerprint args layout)
        = { printFingerprints h now torn (reported stamp limit) settings paths
              layout with
            err := before ++ (printFingerprints h now torn
              (reported stamp limit) settings paths layout).err } := by
  obtain ⟨before, hbefore, hnext⟩ :=
    withSettings_eq hsettings (complaints stamp limit h) fun s =>
      printFingerprints h now torn (reported stamp limit) s paths layout
  refine ⟨before, hbefore, ?_⟩
  unfold perform
  dsimp only
  rw [hok]
  exact hnext

/-- Without an address for the node the command fails. -/
theorem ended_of_addressOf {e : Fault}
    (he : Cluster.addressOf h settings = .error e) (torn : Torn) (stamp : Text)
    (limit : Nat) (layout : Layout) :
    Ended (.error e) (finish
      (perform h now torn stamp limit known (.fingerprint args layout))) := by
  obtain ⟨before, -, hperform⟩ :=
    perform_eq hok hsettings now torn stamp limit layout
  rw [hperform, printFingerprints_of_error (filesRecord_of_addressOf he)]
  exact ended_of_fault _ e

/-- With one it prints its record, and then how many files it has left out, if
any; or it fails if the record cannot be printed. -/
theorem exists_perform {i : Instant} (hclock : now.toInstant? = .ok i)
    {address : Text} (haddress : Cluster.addressOf h settings = .ok address)
    (hpaths : paths ≠ []) (haccounted : Accounted h paths prints logs)
    (hvalue : Fingerprint.ofValue h (Fingerprint.mapping paths)
      = .ok (prints, logs))
    (torn : Torn) (stamp : Text) (limit : Nat) (layout : Layout) :
    ∃ r shown err, printedRecord h now settings paths = .ok r
      ∧ layOut layout r .none = .ok shown
      ∧ Tells layout shown Field.complianceFileInfos.wire
        (.list (prints.map Fingerprint.toValue))
      ∧ (Intact layout r torn →
        finish (perform h now torn stamp limit known (.fingerprint args layout))
          = ⟨shown ++ ['\n'], err, .exit 0 false⟩)
      ∧ (¬ Intact layout r torn → ∃ flaw, Ended (.error (.encoding flaw))
        (finish (perform h now torn stamp limit known
          (.fingerprint args layout))))
      ∧ ∀ n, skippedNote n <:+ err
        ↔ n + prints.length = paths.length ∧ 0 < n := by
  obtain ⟨r, shown, hr, hshown, htells, hfails, hprints⟩ :=
    exists_printFingerprints hclock haddress hpaths hvalue torn
      (reported stamp limit) layout
  obtain ⟨before, hbefore, hperform⟩ :=
    perform_eq hok hsettings now torn stamp limit layout
  rw [hperform]
  refine ⟨r, shown, before ++ (reported stamp limit logs
      ++ skippedLine (paths.length - prints.length)), hr, hshown, htells,
    ?_, ?_, fun n => ?_⟩
  · intro hintact
    rcases render_cases hshown torn with ⟨-, hrender⟩ | ⟨htorn, -⟩
    · rw [hprints shown hrender]
      rfl
    · exact absurd hintact htorn
  · intro htorn
    rcases render_cases hshown torn with ⟨hintact, -⟩ | ⟨-, flaw, hrender⟩
    · exact absurd hintact htorn
    · rw [hfails _ hrender]
      exact ⟨flaw, ended_of_fault _ _⟩
  · have hlength := haccounted.length_eq
    have hlogs : paths.length - prints.length = 0 → logs = [] := fun hk =>
      List.length_eq_zero_iff.mp (by omega)
    rw [skippedNote_suffix_iff hbefore hlogs]
    omega

end Performed

/-- With settings and a clock the fingerprint command fails for its arguments
exactly if one of them lacks a part, and names the first such one. Otherwise
it fails only if the node has no address, since the name of its machine
cannot be looked up, or if half of a surrogate pair is in the way of
printing; it ends with code 1 then and prints nothing but the reason. Else it
ends with code 0. The record that it prints, in whatever layout, holds the
fingerprints of exactly those files that have one, in the order in which the
distinct keys were first given, each of the path that its key was given last.
How many keys that leaves without a fingerprint is the last that it reports,
unless there are none. -/
theorem fingerprint_accounts {args : List Text} {u : Int} (hargs : args ≠ [])
    (hsettings : inForce h known = .ok settings) (hclock : now.Shows u)
    (hdate : Instant.HasDate u) (torn : Torn) (stamp : Text) (limit : Nat)
    (layout : Layout) :
    let ended :=
      finish (perform h now torn stamp limit known (.fingerprint args layout))
    ((∃ e, fileArguments args = .error e ∧ e.family = "ValueError".toList)
        ↔ ∃ s ∈ args, Lacking s)
    ∧ (∀ e, fileArguments args = .error e →
        ∃ s, FirstLacking args s ∧ e = .fileArgument (Text.quoted s)
          ∧ ended = ⟨[], "Error: ".toList ++ e.message ++ ['\n'],
            .exit 1 false⟩)
    ∧ ((∀ s ∈ args, ¬ Lacking s) →
        ∃ parts paths prints logs,
          List.Forall₂ Says args parts ∧ Assigns parts paths
          ∧ fileArguments args = .ok paths
          ∧ Accounted h paths prints logs
          ∧ (∀ e, Cluster.addressOf h settings = .error e →
            Ended (.error e) ended)
          ∧ ∀ address, Cluster.addressOf h settings = .ok address →
            ∃ r shown err, printedRecord h now settings paths = .ok r
              ∧ layOut layout r .none = .ok shown
              ∧ Tells layout shown Field.complianceFileInfos.wire
                (.list (prints.map Fingerprint.toValue))
              ∧ (Intact layout r torn →
                ended = ⟨shown ++ ['\n'], err, .exit 0 false⟩)
              ∧ (¬ Intact layout r torn →
                ∃ flaw, Ended (.error (.encoding flaw)) ended)
              ∧ ∀ n, skippedNote n <:+ err
                ↔ n + prints.length = (parts.map (·.1)).eraseDups.length
                  ∧ 0 < n) := by
  intro ended
  rcases fileArguments_cases args with
    ⟨hnone, parts, paths, hparts, hassigns, hok⟩ | ⟨s, hs, herror⟩
  · refine ⟨iff_of_false ?_ ?_, fun e he => ?_, fun _ => ?_⟩
    · rintro ⟨e, he, -⟩
      cases hok.symm.trans he
    · rintro ⟨s, hs, hlacking⟩
      exact hnone s hs hlacking
    · cases hok.symm.trans he
    · have hne : parts ≠ [] := by
        rintro rfl
        cases hparts
        exact hargs rfl
      obtain ⟨prints, logs, haccounted, hvalue⟩ := exists_accounted h paths
      refine ⟨parts, paths, prints, logs, hparts, hassigns, hok, haccounted,
        fun e he => ended_of_addressOf hok hsettings he torn stamp limit layout,
        fun address haddress => ?_⟩
      rw [← hassigns.length_eq]
      exact exists_perform hok hsettings (hclock.toInstant? hdate) haddress
        (hassigns.ne_nil hne) haccounted hvalue torn stamp limit layout
  · refine ⟨iff_of_true ⟨_, herror, rfl⟩ ⟨s, hs.mem⟩, fun e he => ?_,
      fun hnone => absurd hs.mem.2 (hnone s hs.mem.1)⟩
    cases herror.symm.trans he
    exact ⟨s, hs, rfl, congrArg finish (perform_of_refused herror)⟩

/-- A machine with two files, one with an equals sign in its name. -/
def twoFiles : Host :=
  { files := ⟨[(["old.yml".toList], ⟨.file [0x6F], ⟨0⟩⟩),
      (["a=b".toList], ⟨.file [0x78], ⟨0⟩⟩)]⟩
    directory := []
    home := []
    users := []
    environment := []
    name := []
    lookup := fun _ => .unknown
    freshId := [] }

/-- A key that is given twice has the second path, which goes on behind a
second equals sign; a file that is not there is told of. -/
theorem fingerprint_accounts_repeatedKey :
    ∃ (shown : Text) (f : Fingerprint) (err : Text),
      finish (perform twoFiles ⟨⟨2024, 1, 2⟩, ⟨3, 4, 5, 678000⟩, some 0⟩
          .none [] Severity.info.rank none
          (.fingerprint ["conf=old.yml".toList, "gone.yml".toList,
            "conf=a=b".toList] .json))
        = ⟨shown ++ ['\n'], err, .exit 0 false⟩
      ∧ Tells .json shown Field.complianceFileInfos.wire (.list [f.toValue])
      ∧ f.key = "conf".toList ∧ f.path = "/a=b".toList
      ∧ skippedNote 1 <:+ err := by
  have hclock : DateTime.Shows ⟨⟨2024, 1, 2⟩, ⟨3, 4, 5, 678000⟩, some 0⟩
      (Instant.elapsed ⟨2024, 1, 2⟩ ⟨3, 4, 5, 678000⟩) :=
    ⟨rfl, 0, rfl, Int.sub_zero _⟩
  have hdate : Instant.HasDate
      (Instant.elapsed ⟨2024, 1, 2⟩ ⟨3, 4, 5, 678000⟩) :=
    ⟨_, _, rfl, rfl, by decide, rfl⟩
  have hsettings : inForce twoFiles none = .ok _ := rfl
  have hpaths : fileArguments ["conf=old.yml".toList, "gone.yml".toList,
      "conf=a=b".toList] = .ok [("conf".toList, "a=b".toList),
        ("gone.yml".toList, "gone.yml".toList)] := rfl
  obtain ⟨hrefused, -, haccounts⟩ :=
    fingerprint_accounts (List.cons_ne_nil _ _) hsettings hclock hdate .none
      [] Severity.info.rank .json
  obtain ⟨parts, paths, prints, logs, -, hassigns, hok, haccounted, -,
    hprinted⟩ := haccounts fun s hs hlacking => by
      obtain ⟨e, he, -⟩ := hrefused.mpr ⟨s, hs, hlacking⟩
      cases hpaths.symm.trans he
  obtain ⟨r, shown, err, -, -, htells, hended, -, hnote⟩ := hprinted _ rfl
  have hintact : Intact .json r .none :=
    ⟨nofun, fun shown _ => Utf8.Halves.absent_none shown⟩
  cases hpaths.symm.trans hok
  have hown : Fingerprint.ownPlace twoFiles "a=b".toList
      = .ok ["a=b".toList] := rfl
  have hthere : ∃ f, Prints twoFiles "conf".toList "a=b".toList f :=
    ⟨_, .of (by decide) ⟨by decide, _, rfl, rfl⟩ hown rfl
      (eq_ok_of_toOption (a := Instant.toText ⟨0⟩) (by decide +kernel))⟩
  have hgone : ∀ f, ¬ Prints twoFiles "gone.yml".toList "gone.yml".toList f := by
    rintro f ⟨-, hholds, -⟩
    obtain ⟨p, hplace, -⟩ := hholds.place
    cases hplace
  cases haccounted with
  | leftOut hnone =>
      obtain ⟨f, hf⟩ := hthere
      exact absurd hf (hnone f)
  | recorded hf hrest =>
      cases hrest with
      | recorded hf' => exact absurd hf' (hgone _)
      | leftOut _ _ hrest =>
          cases hrest
          cases hf
          refine ⟨shown, _, err, hended hintact, htells, rfl, rfl,
            (hnote 1).mpr ?_⟩
          rw [← hassigns.keys]
          exact ⟨rfl, Nat.one_pos⟩

/-- A machine without files whose name ends in an octet that is no text. -/
def tornHost : Host :=
  { Record.bareHost with name := "caf".toList ++ [Utf8.replacement] }

/-- The half of a surrogate pair that stands for the octet. -/
def tornName : Torn where
  forms := fun name i =>
    if name = Field.nodeHostName.wire ∧ i = 3 then some 0xDCE9 else none
  shown := .none

/-- A machine without files in a cluster whose name has a second line. -/
def twoLineHost : Host :=
  { Record.bareHost with
    environment := [("AUDIT_CLUSTER_NAME".toList,
      "prod\naudit_compliance_file_infos: [\x22gone.yml\x22]".toList)] }

/-- What the command prints of a file that is not there. -/
def goneFile (h : Host) (torn : Torn) (layout : Layout) : Printed :=
  perform h ⟨⟨2024, 1, 2⟩, ⟨3, 4, 5, 678000⟩, some 0⟩ torn []
    Severity.info.rank none (.fingerprint ["gone.yml".toList] layout)

/-- An argument that lacks nothing, on machines whose addresses are known.
With half of a pair in the name of the machine no query is printed. With a
line feed in the name of the cluster a text seems to tell of the file. -/
theorem fingerprint_oddNames :
    (∀ s ∈ ["gone.yml".toList], ¬ Lacking s)
      ∧ (∀ h ∈ [tornHost, twoLineHost], ∃ settings address,
        inForce h none = .ok settings
          ∧ Cluster.addressOf h settings = .ok address)
      ∧ finish (goneFile tornHost tornName .url)
        = ⟨[], ("Error: 'utf-8' codec can't encode character '\\udce9' in "
            ++ "position 3: surrogates not allowed\n").toList,
          .exit 1 false⟩
      ∧ "audit_compliance_file_infos: [\x22gone.yml\x22]".toList
        ∈ Text.splitAt '\n' (goneFile twoLineHost .none .text).out := by
  obtain ⟨hout, herr, hfault, hline⟩ :
      (goneFile tornHost tornName .url).out = []
        ∧ (finish (goneFile tornHost tornName .url)).err
          = ("Error: 'utf-8' codec can't encode character '\\udce9' in "
            ++ "position 3: surrogates not allowed\n").toList
        ∧ (goneFile tornHost tornName .url).fault.isSome = true
        ∧ "audit_compliance_file_infos: [\x22gone.yml\x22]".toList
          ∈ Text.splitAt '\n' (goneFile twoLineHost .none .text).out := by
    decide +kernel
  refine ⟨?_, ?_, ?_, hline⟩
  · intro s hs hlacking
    cases List.mem_singleton.mp hs
    cases hlacking.fileArgument_eq
  · intro h hh
    rcases List.mem_pair.mp hh with rfl | rfl
    · exact ⟨_, _, rfl, rfl⟩
    · exact ⟨_, _, rfl, rfl⟩
  · obtain ⟨e, he⟩ := Option.isSome_iff_exists.mp hfault
    rw [← herr, finish, he, hout]

end AuditTrail.Command
