/-
What is recorded of files, and what of those that are left out.

A file's digest is that of its whole content, read in pieces or not
(`digest_ofNamed`). An entry has a fingerprint if its path leads to content
and its time can be written (`Prints`); otherwise it is missed for one of
five causes (`Missed`): a path that no file can have, a path that leads
nowhere, a place that may not be read, a place that has nothing to read, a
time out of range. These are all the ways there are (`prints_or_missed`),
and each of them is survived, so every entry gives one fingerprint or one
report, whatever the others give (`ofValue_eachAlone`).
-/
import AuditTrail.Files.Fingerprint
import AuditTrail.Proofs.Digest.Sha256
import AuditTrail.Proofs.Files.Tree
import Mathlib.Tactic.Choose

namespace AuditTrail

-- ================================================================ contents

/-- The content of the file that a text leads to. -/
structure Host.Holds (h : Host) (path : Text) (octets : Bytes) : Prop where
  clean : '\x00' ∉ path
  place : ∃ p, h.files.locate true h.directory path = .ok p
    ∧ h.files.item? p = some (.file octets)

namespace Fingerprint

variable {h : Host} {key file path shown t : Text} {octets : Bytes}
  {f : Fingerprint} {cause : Option Fault}

/-- The digits of digests. -/
def digits : Text := "0123456789abcdef".toList

theorem mem_hexOfBytes {c : Char} (hc : c ∈ Text.hexOfBytes octets) :
    c ∈ digits := by
  have hdigit : ∀ n < 16, Text.hexDigit n ∈ digits := by decide
  obtain ⟨b, -, hc⟩ := List.mem_flatMap.mp hc
  have hb := b.toNat_lt
  rcases List.mem_cons.mp hc with rfl | hc
  · exact hdigit _ (by omega)
  · obtain rfl := List.mem_singleton.mp hc
    exact hdigit _ (by omega)

theorem length_hexOfBytes (octets : Bytes) :
    (Text.hexOfBytes octets).length = 2 * octets.length := by
  induction octets with
  | nil => rfl
  | cons b octets ih =>
      rw [Text.hexOfBytes, List.flatMap_cons, List.length_append,
        ← Text.hexOfBytes, ih]
      simp only [List.length_cons, List.length_nil]
      omega

/-- The pieces of a file are digested like its whole content. -/
theorem digestText_eq (octets : Bytes) :
    digestText octets = Text.hexOfBytes (Sha256.standardDigest octets) := by
  rw [digestText, Sha256.digestOfPieces_eq,
    Sha256.flatten_pieces (by decide), Sha256.digest_eq_standardDigest]

theorem ofNamed_eq_ok_iff :
    ofNamed h path shown = .ok t ↔
      ∃ octets, h.Holds path octets ∧ t = digestText octets := by
  unfold ofNamed
  by_cases hnull : '\x00' ∈ path
  · rw [if_pos (List.contains_iff_mem.mpr hnull)]
    exact iff_of_false nofun fun ⟨_, hholds, _⟩ => hholds.clean hnull
  rw [if_neg (mt List.contains_iff_mem.mp hnull)]
  constructor
  · intro hok
    cases hplace : h.files.locate true h.directory path with
    | error e => rw [hplace] at hok; cases hok
    | ok p =>
        cases hcontent : h.files.contentAt p with
        | error e => simp only [hplace, Except.bind, hcontent] at hok; cases hok
        | ok octets =>
            simp only [hplace, Except.bind, hcontent] at hok
            exact ⟨octets, ⟨hnull, p, hplace,
              Tree.contentAt_ok_iff.mp hcontent⟩, (Except.ok.inj hok).symm⟩
  · rintro ⟨octets, ⟨-, p, hplace, hfile⟩, rfl⟩
    simp only [hplace, Except.bind, Tree.contentAt_ok_iff.mpr hfile]

/-- The digest of a file is that of its whole content, in 64 digits, and
there is one exactly if there is a file. It is read in pieces of limited
size, of which none is empty and nothing is lost; any other pieces would do
as well. -/
theorem digest_ofNamed (h : Host) (path shown : Text) :
    (∀ t, ofNamed h path shown = .ok t ↔
      ∃ octets, h.Holds path octets
        ∧ t = Text.hexOfBytes (Sha256.standardDigest octets))
    ∧ (∀ octets,
      (Text.hexOfBytes (Sha256.standardDigest octets)).length = 64
      ∧ ∀ c ∈ Text.hexOfBytes (Sha256.standardDigest octets), c ∈ digits)
    ∧ (∀ octets, (Sha256.pieces chunkSize octets).flatten = octets
      ∧ ∀ piece ∈ Sha256.pieces chunkSize octets,
        piece ≠ [] ∧ piece.length ≤ chunkSize)
    ∧ ∀ pieces : List Bytes,
      Sha256.digestOfPieces pieces
        = Sha256.standardDigest pieces.flatten := by
  refine ⟨fun t => ?_, fun octets => ⟨?_, fun c hc => mem_hexOfBytes hc⟩,
    fun octets => ⟨Sha256.flatten_pieces (by decide) octets,
      fun piece hpiece => Sha256.mem_pieces (by decide) hpiece⟩,
    fun pieces => ?_⟩
  · rw [ofNamed_eq_ok_iff]
    exact exists_congr fun octets => by rw [digestText_eq]
  · rw [length_hexOfBytes]
    rfl
  · rw [Sha256.digestOfPieces_eq, Sha256.digest_eq_standardDigest]

-- ============================================================= one entry

/-- What a text names, without its last link followed. -/
def ownPlace (h : Host) (file : Text) : Except FileError Place :=
  h.files.locatePath false h.directory (Path.ofText file)

/-- The fingerprint of an entry: the digest of the content that its path
leads to, and the time of what stands at the path itself, be it a link. -/
inductive Prints (h : Host) (key file : Text) : Fingerprint → Prop
  | of {octets : Bytes} {own : Place} {e : Entry} {time : Text}
      (hclean : '\x00' ∉ file)
      (hholds : h.Holds (Path.ofText file).toText octets)
      (hown : ownPlace h file = .ok own)
      (hentry : h.files.entry? own = some e)
      (htime : Instant.textOfSeconds e.modified.toSeconds = .ok time) :
      Prints h key file
        ⟨key, ((Path.ofText file).absolute h.directory).toText,
          Text.hexOfBytes (Sha256.standardDigest octets), time⟩

/-- Why an entry has no fingerprint; where its path leads nowhere there is no
fault to be told. -/
inductive Missed (h : Host) (file : Text) : Option Fault → Prop
  | nullByte (hnull : '\x00' ∈ file) : Missed h file (some .nullByte)
  | unreachable {e : FileError} (hclean : '\x00' ∉ file)
      (hplace : h.files.locatePath true h.directory (Path.ofText file)
        = .error e) :
      Missed h file none
  /-- What is there may not be read. -/
  | locked {p : Place} (hclean : '\x00' ∉ file)
      (hplace : h.files.locatePath true h.directory (Path.ofText file)
        = .ok p)
      (hlocked : (h.files.item? p).any Item.isLocked = true) :
      Missed h file none
  /-- What is there has no content. -/
  | unreadable {p : Place} {e : FileError} (hclean : '\x00' ∉ file)
      (hplace : h.files.locatePath true h.directory (Path.ofText file)
        = .ok p)
      (hopen : (h.files.item? p).any Item.isLocked = false)
      (hcontent : h.files.contentAt p = .error e) :
      Missed h file
        (some (.file e (Text.quoted (Path.ofText file).toText)))
  /-- The time is out of the calendar's range. -/
  | undated {octets : Bytes} {own : Place} {e : Entry} {fault : Fault}
      (hclean : '\x00' ∉ file)
      (hholds : h.Holds (Path.ofText file).toText octets)
      (hown : ownPlace h file = .ok own)
      (hentry : h.files.entry? own = some e)
      (htime : Instant.textOfSeconds e.modified.toSeconds = .error fault) :
      Missed h file (some fault)

theorem ofFile_of_holds (hholds : h.Holds path octets) :
    ofFile h path
      = .ok (Text.hexOfBytes (Sha256.standardDigest octets)) :=
  ofNamed_eq_ok_iff.mpr ⟨octets, hholds, (digestText_eq octets).symm⟩

theorem modified_eq {own : Place} {e : Entry} (hown : ownPlace h file = .ok own)
    (hentry : h.files.entry? own = some e) :
    modified h (Path.ofText file) = e.modified := by
  unfold modified
  rw [ownPlace] at hown
  simp only [hown, hentry]

/-- Taking a fingerprint, where the path can be one of a file and leads
somewhere. -/
theorem take_of_locate {p : Place} (key : Text) (hclean : '\x00' ∉ file)
    (hplace : h.files.locatePath true h.directory (Path.ofText file) = .ok p) :
    take h (.text key) (.text file)
      = if (h.files.item? p).any Item.isLocked then .ok none
        else (do
          let digest ← ofFile h (Path.ofText file).toText
          let time ←
            Instant.textOfSeconds (modified h (Path.ofText file)).toSeconds
          .ok (some ⟨key, ((Path.ofText file).absolute h.directory).toText,
            digest, time⟩)) := by
  have hnull : (Path.ofText file).hasNull = false :=
    Bool.eq_false_iff.mpr (mt Path.hasNull_ofText.mp hclean)
  show (if (Path.ofText file).hasNull then _ else _) = _
  rw [hnull, if_neg Bool.false_ne_true, hplace]
  rfl

/-- What has content is not locked. -/
theorem take_of_holds (key : Text) (hclean : '\x00' ∉ file)
    (hholds : h.Holds (Path.ofText file).toText octets) :
    take h (.text key) (.text file)
      = (do
          let time ←
            Instant.textOfSeconds (modified h (Path.ofText file)).toSeconds
          .ok (some ⟨key, ((Path.ofText file).absolute h.directory).toText,
            Text.hexOfBytes (Sha256.standardDigest octets), time⟩)) := by
  obtain ⟨p, hplace, hfile⟩ := hholds.place
  rw [take_of_locate key hclean hplace, hfile, Option.any_some,
    ofFile_of_holds hholds]
  rfl

theorem Prints.take_eq (hf : Prints h key file f) :
    take h (.text key) (.text file) = .ok (some f) := by
  cases hf with
  | of hclean hholds hown hentry htime =>
      rw [take_of_holds key hclean hholds, modified_eq hown hentry, htime]
      rfl

theorem Missed.take_eq (key : Text) (hcause : Missed h file cause) :
    take h (.text key) (.text file) = cause.elim (.ok none) .error := by
  cases hcause with
  | nullByte hnull =>
      show (if (Path.ofText file).hasNull then _ else _) = _
      rw [if_pos (Path.hasNull_ofText.mpr hnull)]
      rfl
  | unreachable hclean hplace =>
      have hnull : (Path.ofText file).hasNull = false :=
        Bool.eq_false_iff.mpr (mt Path.hasNull_ofText.mp hclean)
      show (if (Path.ofText file).hasNull then _ else _) = _
      rw [hnull, if_neg Bool.false_ne_true, hplace]
      rfl
  | locked hclean hplace hlocked =>
      rw [take_of_locate key hclean hplace, if_pos hlocked]
      rfl
  | @unreadable _ e hclean hplace hopen hcontent =>
      have hnull := Path.null_notMem_toText hclean
      have hfile : ofFile h (Path.ofText file).toText
          = .error (.file e (Text.quoted (Path.ofText file).toText)) := by
        unfold ofFile ofNamed
        rw [if_neg (mt List.contains_iff_mem.mp hnull)]
        rw [Tree.locatePath] at hplace
        simp only [hplace, Except.bind, hcontent]
      rw [take_of_locate key hclean hplace, hopen,
        if_neg Bool.false_ne_true, hfile]
      rfl
  | undated hclean hholds hown hentry htime =>
      rw [take_of_holds key hclean hholds, modified_eq hown hentry, htime]
      rfl

/-- There is no other way for an entry to end. -/
theorem prints_or_missed (h : Host) (key file : Text) :
    (∃ f, Prints h key file f) ∨ ∃ cause, Missed h file cause := by
  by_cases hnull : '\x00' ∈ file
  · exact .inr ⟨_, .nullByte hnull⟩
  cases hplace : h.files.locatePath true h.directory (Path.ofText file) with
  | error e => exact .inr ⟨_, .unreachable hnull hplace⟩
  | ok p =>
      cases hcontent : h.files.contentAt p with
      | error e =>
          cases hlocked : (h.files.item? p).any Item.isLocked with
          | true => exact .inr ⟨_, .locked hnull hplace hlocked⟩
          | false =>
              exact .inr ⟨_, .unreadable hnull hplace hlocked hcontent⟩
      | ok octets =>
          have hfile := Tree.contentAt_ok_iff.mp hcontent
          have hholds : h.Holds (Path.ofText file).toText octets :=
            ⟨Path.null_notMem_toText hnull, p, hplace, hfile⟩
          obtain ⟨own, e, hown, hentry⟩ := Tree.exists_ownEntry hplace hfile
          cases htime : Instant.textOfSeconds e.modified.toSeconds with
          | error fault => exact .inr ⟨_, .undated hnull hholds hown hentry htime⟩
          | ok time => exact .inl ⟨_, .of hnull hholds hown hentry htime⟩

/-- What is reported of an entry that is left out. -/
def report (key file : Text) : Option Fault → LogEntry
  | none =>
      skipped ("Skipping unreadable file for ".toList ++ key ++
        ": ".toList ++ file)
  | some e =>
      skipped ("Skipping file fingerprint for ".toList ++ key ++ " (".toList ++
        file ++ "): ".toList ++ e.message)

theorem Prints.ofEntry_eq (hf : Prints h key file f) :
    ofEntry h (.text key) (.text file) = .ok (.ok f) := by
  unfold ofEntry
  rw [hf.take_eq]

theorem Missed.ofEntry_eq (key : Text) (hcause : Missed h file cause) :
    ofEntry h (.text key) (.text file)
      = .ok (.error (report key file cause)) := by
  unfold ofEntry
  rw [hcause.take_eq key]
  cases cause with
  | none => rfl
  | some e => rfl

-- ========================================================== several entries

/-- What an entry contributes: a fingerprint or a report. -/
def contribution :
    Except LogEntry Fingerprint → List Fingerprint × List LogEntry
  | .ok f => ([f], [])
  | .error l => ([], [l])

/-- A map of keys to paths. -/
def mapping (paths : List (Text × Text)) : Value :=
  .map (paths.map fun e => (.text e.1, .text e.2))

variable {r : Text × Text → Except LogEntry Fingerprint}

/-- The contributions of entries stand one after the other. -/
theorem ofValue_mapping
    (hr : ∀ e, ofEntry h (.text e.1) (.text e.2) = .ok (r e))
    (paths : List (Text × Text)) :
    ofValue h (mapping paths)
      = .ok (paths.flatMap fun e => (contribution (r e)).1,
          paths.flatMap fun e => (contribution (r e)).2) := by
  show ofEntries h (paths.map fun e => (.text e.1, .text e.2)) = _
  induction paths with
  | nil => rfl
  | cons e paths ih =>
      rw [List.map_cons, ofEntries, hr, ih, List.flatMap_cons,
        List.flatMap_cons]
      cases r e with
      | ok f => rfl
      | error l => rfl

theorem length_contributions (paths : List (Text × Text)) :
    (paths.flatMap fun e => (contribution (r e)).1).length
      + (paths.flatMap fun e => (contribution (r e)).2).length
      = paths.length := by
  induction paths with
  | nil => rfl
  | cons e paths ih =>
      have hone : (contribution (r e)).1.length
          + (contribution (r e)).2.length = 1 := by
        cases r e with
        | ok f => rfl
        | error l => rfl
      rw [List.flatMap_cons, List.flatMap_cons, List.length_append,
        List.length_append, List.length_cons]
      omega

/-- Taking the fingerprints of files never fails. Every entry gives what it
gives alone: its fingerprint if it has one, or else the report of why not. So
there are as many fingerprints and reports as there are entries. -/
theorem ofValue_eachAlone (h : Host) (paths : List (Text × Text)) :
    ∃ alone : Text × Text → List Fingerprint × List LogEntry,
      (∀ e, ofValue h (mapping [e]) = .ok (alone e))
      ∧ ofValue h (mapping paths)
        = .ok (paths.flatMap fun e => (alone e).1,
            paths.flatMap fun e => (alone e).2)
      ∧ (∀ e,
        (∃ f, Prints h e.1 e.2 f ∧ alone e = ([f], []))
          ∨ ∃ cause, Missed h e.2 cause
            ∧ alone e = ([], [report e.1 e.2 cause]))
      ∧ (paths.flatMap fun e => (alone e).1).length
          + (paths.flatMap fun e => (alone e).2).length = paths.length := by
  have houtcome : ∀ e : Text × Text, ∃ r,
      ofEntry h (.text e.1) (.text e.2) = .ok r
        ∧ ((∃ f, Prints h e.1 e.2 f ∧ contribution r = ([f], []))
          ∨ ∃ cause, Missed h e.2 cause
            ∧ contribution r = ([], [report e.1 e.2 cause])) := by
    intro e
    rcases prints_or_missed h e.1 e.2 with ⟨f, hf⟩ | ⟨cause, hcause⟩
    · exact ⟨_, hf.ofEntry_eq, .inl ⟨f, hf, rfl⟩⟩
    · exact ⟨_, hcause.ofEntry_eq e.1, .inr ⟨cause, hcause, rfl⟩⟩
  choose r hr hcontribution using houtcome
  refine ⟨fun e => contribution (r e), fun e => ?_, ofValue_mapping hr paths,
    hcontribution, length_contributions paths⟩
  rw [ofValue_mapping hr, List.flatMap_cons, List.flatMap_cons,
    List.flatMap_nil, List.flatMap_nil, List.append_nil, List.append_nil]

end Fingerprint

end AuditTrail
