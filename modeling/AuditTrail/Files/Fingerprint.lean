/-
Fingerprints of files: the digest of a file's content and the time when the name that leads to it
was last modified. Taking fingerprints is done as far as it goes: a file that cannot be read is
reported and left out.
-/
import AuditTrail.Digest.Sha256
import AuditTrail.Host
import AuditTrail.Log
import AuditTrail.Value.Sequence

namespace AuditTrail

/-- The fingerprint of a file. -/
structure Fingerprint where
  key : Text
  path : Text
  sha256 : Text
  lastModified : Text
  deriving DecidableEq, Repr

/-- A fingerprint as a map. -/
def Fingerprint.toValue (f : Fingerprint) : Value :=
  .map [(.text "key".toList, .text f.key), (.text "path".toList, .text f.path),
    (.text "sha256".toList, .text f.sha256), (.text "last_modified".toList, .text f.lastModified)]

/-- A time as it is recorded, if there is one. -/
def Instant.recorded (i : Except Instant.Error Instant) : Except Fault Text :=
  match i with
  | .ok i => .ok i.toText
  | .error e => .error (.instant e)

/-- A time in seconds as it is recorded. -/
def Instant.textOfSeconds (seconds : Double) : Except Fault Text := recorded (ofSeconds seconds)

/-- A time in seconds as it is recorded, for a value that has to be a number. -/
def Instant.textOfValue (seconds : Value) : Except Fault Text :=
  match seconds.int?, seconds with
  | some n, _ => recorded (ofWholeSeconds n 0)
  | none, .float x => textOfSeconds x
  | none, v => .error (.notInteger v.qualifiedFamily)

namespace Fingerprint

/-- How many octets of a file are read at once. -/
def chunkSize : Nat := 8192

/-- The digest of a file's content in hexadecimal. -/
def digestText (octets : Bytes) : Text :=
  Text.hexOfBytes (Sha256.digestOfPieces (Sha256.pieces chunkSize octets))

/-- The digest of the file that a text leads to; a complaint shows the path in a form of its own. -/
def ofNamed (h : Host) (path shown : Text) : Except Fault Text :=
  if path.contains '\x00' then .error .nullByte
  else
    match (h.files.locate true h.directory path).bind h.files.contentAt with
    | .ok octets => .ok (digestText octets)
    | .error e => .error (.file e shown)

/-- The digest of the file that a text leads to. -/
def ofFile (h : Host) (path : Text) : Except Fault Text := ofNamed h path (Text.quoted path)

/-- The digest of the file that is open under a number of 32 bits; none is. Any other number is no
name of a file. -/
def ofDescriptor (number : Value) (n : Int) : Except Fault Text :=
  if n < -(Nat.pow 2 31 : Int) ∨ Nat.pow 2 31 ≤ n then .error (.notPath number.family)
  else if n < 0 then .error .negativeDescriptor
  else .error .badDescriptor

/-- The digest of the file that a value names. No file has a name that is no text. -/
def ofFileValue (h : Host) (path : Value) : Except Fault Text :=
  match path.text?, path.int?, path with
  | some s, _, v => ofNamed h s v.quoted
  | none, some n, v => ofDescriptor v n
  | none, none, .bytes octets =>
    match Utf8.decode octets with
    | .ok s => ofNamed h s (Text.quotedBytes octets)
    | .error _ =>
      if octets.contains 0 then .error .nullByte
      else .error (.file .missing (Text.quotedBytes octets))
  | none, none, v => .error (.notPath v.family)

/-- The title of a report about a fingerprint. -/
def title : Text := "FileInfo".toList

/-- A key as a text, which it has to be. -/
def keyText (key : Value) : Except Fault Text :=
  let refuse (code wording : String) : Except Fault Text :=
    .error (.invalid ⟨title, [⟨"key".toList, code.toList, wording.toList, key⟩]⟩)
  match key.text?, key with
  | some s, _ => .ok s
  | none, .bytes octets =>
    match Utf8.decode octets with
    | .ok s => .ok s
    | .error _ =>
      refuse "string_unicode"
        "Input should be a valid string, unable to parse raw data as a unicode string"
  | none, _ => refuse "string_type" "Input should be a valid string"

/-- The time when what stands at a path, be it a link, was last modified. -/
def modified (h : Host) (path : Path) : Instant :=
  match h.files.locatePath false h.directory path with
  | .ok p =>
    match h.files.entry? p with
    | some e => e.modified
    | none => ⟨0⟩
  | .error _ => ⟨0⟩

/-- The fingerprint of the file at a path, or nothing if it cannot be read. -/
def take (h : Host) (key file : Value) : Except Fault (Option Fingerprint) := do
  let path ← Path.ofValue file
  if path.hasNull then .error .nullByte
  else
    match h.files.locatePath true h.directory path with
    | .error _ => .ok none
    | .ok place =>
      if (h.files.item? place).any Item.isLocked then .ok none
      else
        let digest ← ofFile h path.toText
        let time ← Instant.textOfSeconds (modified h path).toSeconds
        let key ← keyText key
        .ok (some ⟨key, (path.absolute h.directory).toText, digest, time⟩)

/-- A report of a file that was left out. -/
def skipped (message : Text) : LogEntry := ⟨.debug, .audit, message⟩

/-- The fingerprint of one entry, or the report of why there is none. -/
def ofEntry (h : Host) (key file : Value) : Except Fault (Except LogEntry Fingerprint) := do
  match take h key file with
  | .ok (some f) => .ok (.ok f)
  | .ok none => do
    let k ← key.plainText
    let p ← file.plainText
    .ok (.error (skipped ("Skipping unreadable file for ".toList ++ k ++ ": ".toList ++ p)))
  | .error e => do
    let k ← key.plainText
    let p ← file.plainText
    .ok (.error (skipped ("Skipping file fingerprint for ".toList ++ k ++ " (".toList ++ p ++
      "): ".toList ++ e.message)))

/-- The fingerprints of several entries, and the reports of those left out. -/
def ofEntries (h : Host) : Value.Entries → Except Fault (List Fingerprint × List LogEntry)
  | [] => .ok ([], [])
  | (key, file) :: rest => do
    let first ← ofEntry h key file
    let (prints, logs) ← ofEntries h rest
    match first with
    | .ok f => .ok (f :: prints, logs)
    | .error l => .ok (prints, l :: logs)

/-- The fingerprints of the files that a map names, and the reports of those left out. -/
def ofValue (h : Host) (paths : Value) : Except Fault (List Fingerprint × List LogEntry) := do
  ofEntries h (← paths.entries)

end Fingerprint

end AuditTrail
