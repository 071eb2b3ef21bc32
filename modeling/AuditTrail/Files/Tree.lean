/-
A file system as plain data: what stands at each place, and how a name leads to a place. Following
a name goes from directory to directory, through links, and up where it says so. A real path is
found differently: every link on the way is replaced by what it points to, and missing places stay
as they are written.
-/
import AuditTrail.Calendar.Instant
import AuditTrail.Files.Path

namespace AuditTrail

/-- A place: the names that lead to it from the root. -/
abbrev Place := List Text

/-- What stands at a place. -/
inductive Item where
  | file (octets : Bytes)
  | directory
  | link (target : Text)
  /-- A file that may not be read. -/
  | lockedFile
  /-- A directory that may be neither listed nor entered, so that nothing below it is seen. -/
  | lockedDirectory
  deriving DecidableEq, Repr

/-- Whether an item may not be looked into. -/
def Item.isLocked : Item → Bool
  | .lockedFile | .lockedDirectory => true
  | _ => false

/-- An item and the time when it was last modified. -/
structure Entry where
  item : Item
  modified : Instant
  deriving DecidableEq, Repr

/-- The entries of a file system by place. The root is a directory without an entry. -/
structure Tree where
  entries : List (Place × Entry)
  deriving DecidableEq, Repr

namespace Tree

/-- A file system without entries. -/
def empty : Tree := ⟨[]⟩

/-- The entry at a place. -/
def entry? (t : Tree) (p : Place) : Option Entry := t.entries.lookup p

/-- The item at a place. -/
def item? (t : Tree) (p : Place) : Option Item :=
  if p.isEmpty then some .directory else (t.entry? p).map (·.item)

/-- The tree after an entry was set. -/
def set (t : Tree) (p : Place) (e : Entry) : Tree :=
  ⟨(p, e) :: t.entries.filter fun x => x.1 != p⟩

/-- The tree with a directory at a place and at those that lead to it, where nothing stands yet. -/
def addDirectories (t : Tree) (modified : Instant) : Place → Place → Tree
  | _, [] => t
  | above, name :: rest =>
    let p := above ++ [name]
    let t := if (t.item? p).isSome then t else t.set p ⟨.directory, modified⟩
    addDirectories t modified p rest

/-- The tree with an entry at a place and directories on the way to it. -/
def add (t : Tree) (p : Place) (e : Entry) : Tree :=
  let t := addDirectories t e.modified [] p.dropLast
  match e.item with
  | .directory => if (t.item? p).isSome then t else t.set p e
  | _ => t.set p e

-- ==================================================== following a name

/-- The most octets in one name. -/
def nameLimit : Nat := 255

/-- The most links on the way to a place. -/
def linkLimit : Nat := 40

/-- The names that a text leads through; one that ends in a slash leads to the directory there. -/
def stepsOf (s : Text) : List Text :=
  let names := Path.namesOf s
  if s.getLast? = some '/' ∨ Text.endsWith s "/.".toList then names ++ [Path.here] else names

/-- Follows names from a directory on. `enter` is asked where a link is to be followed, with the
directory that holds it and the names that its target and the rest make. -/
def descend (t : Tree) (followLast : Bool) (enter : Place → List Text → Except FileError Place) :
    Place → List Text → Except FileError Place
  | at', [] => .ok at'
  | at', name :: rest =>
    if name = Path.here then descend t followLast enter at' rest
    else if name = Path.above then descend t followLast enter at'.dropLast rest
    else if nameLimit < (Utf8.encode name).length then .error .nameTooLong
    else
      let p := at' ++ [name]
      match t.item? p with
      | none => .error .missing
      | some .directory => descend t followLast enter p rest
      | some (.file _) | some .lockedFile =>
        if rest.isEmpty then .ok p else .error .notDirectory
      | some .lockedDirectory => if rest.isEmpty then .ok p else .error .denied
      | some (.link target) =>
        if rest.isEmpty && !followLast then .ok p
        else
          let start := if target.head? = some '/' then [] else at'
          enter start (stepsOf target ++ rest)

/-- Follows names through at most so many links. -/
def follow (t : Tree) (followLast : Bool) : Nat → Place → List Text → Except FileError Place
  | 0 => descend t followLast fun _ _ => .error .linkLoop
  | n + 1 => descend t followLast (follow t followLast n)

/-- The most octets in the text of a path, and one more. -/
def pathLimit : Nat := 4096

/-- The place that a text leads to from a directory. -/
def locate (t : Tree) (followLast : Bool) (directory : Place) (s : Text) :
    Except FileError Place :=
  if s.isEmpty then .error .missing
  else if pathLimit ≤ (Utf8.encode s).length then .error .nameTooLong
  else
    let start := if s.head? = some '/' then [] else directory
    follow t followLast linkLimit start (stepsOf s)

/-- The place where an entry with some path is made: in the directory that the path leads to, or
where that is missing as the path is written. -/
def placeForNew (t : Tree) (directory : Place) (p : Path) : Place :=
  let written := if p.isAbsolute then p.names else directory ++ p.names
  match p.names.getLast?, follow t true linkLimit [] written.dropLast with
  | some name, .ok place => place ++ [name]
  | _, _ => written

/-- The place that a path leads to. -/
def locatePath (t : Tree) (followLast : Bool) (directory : Place) (p : Path) :
    Except FileError Place :=
  locate t followLast directory p.toText

/-- The content of the file at a place that was found. -/
def contentAt (t : Tree) (p : Place) : Except FileError Bytes :=
  match t.item? p with
  | some (.file octets) => .ok octets
  | some .directory => .error .isDirectory
  | some .lockedFile | some .lockedDirectory => .error .denied
  | _ => .error .missing

-- ==================================================== real paths

/-- The path above a path. Above the working directory every further step is a double point. -/
def parent (p : Path) : Path :=
  match p.names.getLast? with
  | none => if p.isAbsolute then p else { p with names := [Path.above] }
  | some name =>
    if name = Path.above then { p with names := p.names ++ [Path.above] }
    else { p with names := p.names.dropLast }

/-- A path with further names behind it. Names that begin with a slash, which is written as an empty
name, start from the root. -/
def extend (p : Path) (names : List Text) : Path :=
  match names with
  | [] :: _ :: _ => ⟨['/'], names⟩
  | _ => { p with names := p.names ++ names }

/-- The place of a path, with every double point taken as the way up. -/
def placeOf (directory : Place) (p : Path) : Place :=
  let start := if p.isAbsolute then [] else directory
  p.names.foldl (fun place name =>
    if name.isEmpty ∨ name = Path.here then place
    else if name = Path.above then place.dropLast
    else place ++ [name]) start

/-- The links that were met, as they were reached, and where each leads once that is known. -/
abbrev Met := List (Path × Option Path)

/-- Replaces the links on the way from a path along some names: the path without links, or one that
keeps the names from a link on that leads back to itself. The number bounds the steps. -/
def resolveFrom (t : Tree) (directory : Place) :
    Nat → Met → Path → List Text → Met × Except Path Path
  | 0, met, path, _ => (met, .ok path)
  | _, met, path, [] => (met, .ok path)
  | fuel + 1, met, path, name :: rest =>
    if name.isEmpty ∨ name = Path.here then resolveFrom t directory fuel met path rest
    else if name = Path.above then resolveFrom t directory fuel met (parent path) rest
    else
      let next : Path := { path with names := path.names ++ [name] }
      match t.item? (placeOf directory next) with
      | some (.link target) =>
        match met.lookup next with
        | some (some known) => resolveFrom t directory fuel met known rest
        | some none => (met, .error (extend next rest))
        | none =>
          let start := if target.head? = some '/' then ⟨['/'], []⟩ else path
          let met := (next, none) :: met
          match resolveFrom t directory fuel met start (Text.splitAt '/' target) with
          | (met, .ok path) =>
            resolveFrom t directory fuel ((next, some path) :: met) path rest
          | (met, .error path) => (met, .error (extend path rest))
      | _ => resolveFrom t directory fuel met next rest

/-- The most steps that resolving a path can take: every link is followed once on each of the ways
that lead to it. -/
def stepBound (t : Tree) (p : Path) : Nat :=
  let steps := t.entries.foldl
    (fun n e =>
      match e.2.item with
      | .link target => n + target.length + 1
      | _ => n) (p.names.length + 1)
  4 * steps * steps

/-- The real place of a path. From a link that leads back to itself on, the names are kept as they
are written. -/
def resolve (t : Tree) (directory : Place) (p : Path) : Place :=
  let start : Path := if p.isAbsolute then ⟨['/'], []⟩ else ⟨[], []⟩
  match (resolveFrom t directory (stepBound t p) [] start p.names).2 with
  | .ok q | .error q => placeOf directory q

end Tree

end AuditTrail
