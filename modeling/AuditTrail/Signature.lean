/-
How many arguments an operation takes, and what is said of a call with too few or too many.
-/
import AuditTrail.Fault

namespace AuditTrail

/-- The name of an operation, the names of the arguments that it needs, and how many more it may
be given. A method is given its object besides. -/
structure Signature where
  name : Text
  required : List Text
  optional : Nat
  deriving DecidableEq, Repr

namespace Signature

/-- Names between quotes, the last one after a conjunction. -/
def enumerate : List Text → Text
  | [] => []
  | [a] => Text.quoted a
  | [a, b] => Text.quoted a ++ " and ".toList ++ Text.quoted b
  | names =>
    Text.joinWith ", ".toList (names.dropLast.map Text.quoted) ++ ", and ".toList ++
      Text.quoted (names.getLast?.getD [])

/-- An ending for more than one thing. -/
def plural (n : Nat) : Text := if n = 1 then [] else ['s']

/-- The complaint about arguments that are not given. -/
def missing (s : Signature) (names : List Text) : Text :=
  s.name ++ "() missing ".toList ++ Text.ofNat names.length ++
    " required positional argument".toList ++ plural names.length ++ ": ".toList ++
    enumerate names

/-- The complaint about too many arguments. -/
def tooMany (s : Signature) (given : Nat) : Text :=
  let least := s.required.length + 1
  let most := least + s.optional
  let taken :=
    if s.optional = 0 then Text.ofNat most
    else "from ".toList ++ Text.ofNat least ++ " to ".toList ++ Text.ofNat most
  s.name ++ "() takes ".toList ++ taken ++ " positional argument".toList ++ plural most ++
    " but ".toList ++ Text.ofNat (given + 1) ++ " were given".toList

/-- Whether a call with so many arguments is one. -/
def check (s : Signature) (given : Nat) : Except Fault Unit :=
  if given < s.required.length then .error (.arguments (s.missing (s.required.drop given)))
  else if s.required.length + s.optional < given then .error (.arguments (s.tooMany given))
  else .ok ()

end Signature

end AuditTrail
