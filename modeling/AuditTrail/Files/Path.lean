/-
Names of places in the file system. A path is a root, which is empty for a path that starts from
the working directory, and the names below it; empty names and single points are left out, double
points are kept.
-/
import AuditTrail.Fault

namespace AuditTrail

/-- A path. -/
structure Path where
  root : Text
  names : List Text
  deriving DecidableEq, Repr

namespace Path

/-- The name of the directory itself. -/
def here : Text := ['.']

/-- The name of the directory above. -/
def above : Text := ['.', '.']

/-- The names between slashes, without those that lead nowhere. -/
def namesOf (s : Text) : List Text :=
  (Text.splitAt '/' s).filter fun name => !name.isEmpty && name != here

/-- The root of a path: one slash for any number of slashes but two. -/
def rootOf (s : Text) : Text :=
  match (s.takeWhile (· == '/')).length with
  | 0 => []
  | 2 => ['/', '/']
  | _ => ['/']

/-- The path that a text names. -/
def ofText (s : Text) : Path := ⟨rootOf s, namesOf s⟩

/-- The text of a path. -/
def toText (p : Path) : Text :=
  if p.root.isEmpty && p.names.isEmpty then here else p.root ++ Text.joinWith ['/'] p.names

/-- The path that a value names. -/
def ofValue (v : Value) : Except Fault Path :=
  match v with
  | .text s => .ok (ofText s)
  | .term t => .ok (ofText t.plain)
  | .bytes _ => .error .octetPath
  | v => .error (.notPath v.family)

/-- Whether a path starts from the root. -/
def isAbsolute (p : Path) : Bool := !p.root.isEmpty

/-- A path from the root: one that starts from the working directory is put below it. -/
def absolute (directory : List Text) (p : Path) : Path :=
  if p.isAbsolute then p else ⟨['/'], directory ++ p.names⟩

/-- The text of a place below the root. -/
def textOfPlace (names : List Text) : Text := '/' :: Text.joinWith ['/'] names

/-- Users by name with their home directories. -/
abbrev Users := List (Text × Text)

/-- The home directory that the name after a tilde stands for: without a name that of the user who
runs the program. -/
def homeOf? (home : Text) (users : Users) (name : Text) : Option Text :=
  if name.isEmpty then some home else users.lookup name

/-- A text without the slashes at its end. -/
def dropSlashes (s : Text) : Text := (s.reverse.dropWhile (· == '/')).reverse

/-- A path with a home directory in place of the tilde at its beginning. A home directory that
begins with a tilde itself is as good as none, and an empty one is the root. -/
def expandHome (home : Text) (users : Users) (p : Path) : Except Fault Path :=
  match p.isAbsolute, p.names with
  | false, ('~' :: name) :: rest =>
    if name.contains '\x00' then .error .nullByte
    else
      match (homeOf? home users name).map dropSlashes with
      | none | some ('~' :: _) => .error .noHome
      | some [] => .ok ⟨['/'], rest⟩
      | some directory =>
        let h := ofText directory
        .ok ⟨h.root, h.names ++ rest⟩
  | _, _ => .ok p

/-- Whether a path holds the null character, which the file system refuses. -/
def hasNull (p : Path) : Bool := p.names.any (·.contains '\x00')

end Path

end AuditTrail
