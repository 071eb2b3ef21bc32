/-
The program as it is run. Before a command line is interpreted, the part of the machine that it
leads to is read: its files, the variables of the environment, the machine's name and the time.
Everything else is decided by `Command.run`.
-/
import AuditTrail.Command.Run
import Std.Time.DateTime.Timestamp

namespace AuditTrail.Machine

/-- The text of octets; octets that are no text are empty. -/
def textOf (octets : ByteArray) : Text := (Utf8.decode octets.toList).toOption.getD []

/-- The result of reading something, if that succeeds. -/
def attempt {α : Type} (x : IO α) : IO (Option α) := do
  try return some (← x) catch _ => return none

/-- The instant of a time that the file system gives. -/
def instantOf (t : IO.FS.SystemTime) : Instant := ⟨t.sec * 1000000 + t.nsec.toNat / 1000⟩

/-- What the file system says of the entry at an absolute path, be it a link. -/
def metadata (path : String) : IO IO.FS.Metadata := do ((← IO.currentDir) / path).symlinkMetadata

/-- The tree with everything that stands on the way along some names from a place on. A link is
read as a link to the real place behind it, and left out if there is none. -/
partial def explore (t : Tree) (above : Place) : List Text → IO Tree
  | [] => return t
  | name :: rest => do
    if name = Path.above then explore t above.dropLast rest
    else
      let place := above ++ [name]
      let path := String.ofList (Path.textOfPlace place)
      match ← attempt (metadata path) with
      | none => return t
      | some found =>
        let time := instantOf found.modified
        match found.type with
        | .dir => explore (t.add place ⟨.directory, time⟩) place rest
        | .symlink =>
          match ← attempt (IO.FS.realPath path) with
          | none => return t
          | some target =>
            let target := target.toString.toList
            explore (t.add place ⟨.link target, time⟩) [] (Path.namesOf target ++ rest)
        | _ =>
          match ← attempt (IO.FS.readBinFile path) with
          | none => return t.add place ⟨.lockedFile, time⟩
          | some octets => return t.add place ⟨.file octets.toList, time⟩

/-- The machine with everything on the way to a path. -/
def withPath (h : Host) (path : Path) : IO Host := do
  let start := if path.isAbsolute then [] else h.directory
  return { h with files := ← explore h.files [] (start ++ path.names) }

/-- The paths that a command line leads to. -/
def paths (h : Host) (args : List Text) : List Path :=
  match Command.invocation args with
  | .error _ => []
  | .ok i =>
    match i.task with
    | some (.fingerprint files _) =>
      match Command.fileArguments files with
      | .ok pairs => pairs.map fun p => Path.ofText p.2
      | .error _ => []
    | some (.filter (some path) _) =>
      ((Path.ofText path).expandHome h.home h.users).toOption.toList
    | _ => []

/-- The path of the filter that the settings name. -/
def filterPath (h : Host) : List Path :=
  match Settings.read h with
  | .ok s => (s.filterPath.bind fun p => (p.expandHome h.home h.users).toOption).toList
  | .error _ => []

/-- The variables of the environment. -/
def environment : IO (List (Text × Text)) := do
  match ← attempt (IO.FS.readBinFile "/proc/self/environ") with
  | none => return []
  | some octets => return (Text.splitAt '\x00' (textOf octets)).filterMap (Text.cutFirst '=')

/-- The user of a line in the table of users. -/
def user? (line : Text) : Option (Text × Text) :=
  match Text.splitAt ':' line with
  | name :: _ :: _ :: _ :: _ :: directory :: _ => some (name, directory)
  | _ => none

/-- The users of the machine. -/
def users : IO Path.Users := do
  match ← attempt (IO.FS.readBinFile "/etc/passwd") with
  | none => return []
  | some octets => return (Text.splitAt '\n' (textOf octets)).filterMap user?

/-- The home directory of the administrator. -/
def rootHome : Text := "/root".toList

/-- An identifier that no other node has. -/
def freshId : IO Text := return Text.hexOfBytes (← IO.getRandomBytes 16).toList

/-- The machine without any files but the file of variables. -/
def bare : IO Host := do
  let directory ← IO.currentDir
  let name ← attempt (IO.FS.readBinFile "/proc/sys/kernel/hostname")
  let environment ← environment
  let h : Host :=
    { files := .empty
      directory := Path.namesOf directory.toString.toList
      home := (environment.lookup "HOME".toList).getD rootHome
      users := ← users
      environment := environment
      name := Text.trim ((name.map textOf).getD [])
      lookup := fun _ => .unknown
      freshId := ← freshId }
  withPath h (Path.ofText Settings.envFile)

/-- The machine as far as a command line leads to it. -/
def read (args : List Text) : IO Host := do
  let h ← bare
  (paths h args ++ filterPath h).foldlM withPath h

/-- The present time. -/
def now : IO Instant := do
  let t ← Std.Time.Timestamp.now
  return ⟨t.toNanosecondsSinceUnixEpoch.val / 1000⟩

/-- A time as reports show it. -/
def stamp (i : Instant) : Text :=
  i.date.toText ++ ' ' :: i.timeOfDay.clockText ++ ',' ::
    Text.ofNatPadded 3 (i.timeOfDay.micro / 1000)

end AuditTrail.Machine

open AuditTrail

/-- Runs the program with some arguments and returns its exit code. -/
def main (args : List String) : IO UInt32 := do
  let args := args.map (·.toList)
  let h ← Machine.read args
  let now ← Machine.now
  let f := Command.run h ⟨now.date, now.timeOfDay, none⟩ .none (Machine.stamp now) args
  IO.print (String.ofList f.out)
  IO.eprint (String.ofList f.err)
  match f.ending with
  | .exit code _ => return code.toUInt32
  | .escaped e =>
    IO.eprintln (String.ofList (e.family ++ ": ".toList ++ e.message))
    return 1
