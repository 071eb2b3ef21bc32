/-
The machine that records are made on, as far as they depend on it: its files, the working and the
home directory, its users, the variables of its environment, its name, and what names of machines
stand for.
-/
import AuditTrail.Files.Tree

namespace AuditTrail

/-- What asking for the address of a machine by its name comes to. -/
inductive Lookup where
  | found (address : Text)
  /-- Nobody knows of the name. -/
  | unknown
  /-- Nobody can be asked for the name, for a fault of a class with a message. -/
  | refused (family message : Text)
  deriving DecidableEq, Repr

/-- A machine. -/
structure Host where
  files : Tree
  /-- The working directory. -/
  directory : Place
  /-- The home directory. -/
  home : Text
  /-- The users of the machine. -/
  users : Path.Users
  /-- The environment, in the order of its names. -/
  environment : List (Text × Text)
  name : Text
  /-- What the names of machines stand for. -/
  lookup : Text → Lookup
  /-- The identifier of a node that has no other. -/
  freshId : Text

end AuditTrail
