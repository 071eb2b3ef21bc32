/-
What the operations on a record are given: values, and the objects that callers describe events
with. An object that an operation has no use for counts as a value without any content.
-/
import AuditTrail.Exception.Basic
import AuditTrail.Filter.Options
import AuditTrail.Request

namespace AuditTrail

/-- A filter as an object, its options being its parts. -/
def Filter.toValue (f : Filter) : Value :=
  let shown := f.toOptions.map fun o => o.1.plain ++ '=' :: o.2.quoted
  .foreign
    { family := title
      plain := Text.joinWith [' '] shown
      quoted := title ++ '(' :: Text.joinWith ", ".toList shown ++ [')']
      hashable := false
      walkable := true
      comparable := true } f.toOptions

/-- What an operation on a record is given. -/
inductive Argument where
  | value (v : Value)
  | request (r : Request)
  | filter (f : Filter)
  | shard (s : Shard)
  | exception (e : Raised)

namespace Argument

/-- An argument as a value. -/
def toValue : Argument → Value
  | .value v => v
  | .request r => r.toValue
  | .filter f => f.toValue
  | .shard s => s.toValue
  | .exception e => e.toValue

/-- The name of an argument's type. -/
def family (a : Argument) : Text := a.toValue.qualifiedFamily

/-- Whether an argument is null. -/
def isNull : Argument → Bool
  | .value .null => true
  | _ => false

/-- Whether an argument that is no request has a path nevertheless: an exception that tells of a
module has. -/
def hasPath : Argument → Bool
  | .exception e =>
    e.head.family == "ImportError".toList || e.head.family == "ModuleNotFoundError".toList
  | _ => false

/-- An argument that is not there. -/
def absent : Argument := .value .null

end Argument

/-- What is given where a filter may be given. -/
inductive FilterChoice where
  | absent
  | given (f : Filter)
  /-- An object that is no filter, of some type. -/
  | other (family : Text)
  deriving DecidableEq, Repr

/-- The filter that an argument is. -/
def FilterChoice.ofArgument : Argument → FilterChoice
  | .filter f => .given f
  | a => if a.isNull then .absent else .other a.family

end AuditTrail
