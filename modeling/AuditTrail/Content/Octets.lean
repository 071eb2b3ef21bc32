/-
The octets and the text that a piece of content stands for. Content is usually octets or text, but
callers may give anything: a number stands for so many zero octets, a sequence of small numbers for
those octets, and everything else for none.
-/
import AuditTrail.Value.Sequence

namespace AuditTrail.Content

/-- The number of things that cannot be counted any more. -/
def countLimit : Nat := Nat.pow 2 63

/-- The number of octets that cannot be asked for any more; some are needed beside them. -/
def sizeLimit : Nat := countLimit - 33

/-- The number of octets that no memory holds. How many that are depends on the machine; this one
stands for all machines, and lies far from any number of octets that is asked for on purpose. -/
def memoryLimit : Nat := Nat.pow 2 38

/-- So many zero octets. -/
def zeros (n : Int) : Except Fault Bytes :=
  if (countLimit : Int) ≤ n ∨ n < -(countLimit : Int) then .error .hugeCount
  else if n < 0 then .error .negativeCount
  else if (sizeLimit : Int) ≤ n then .error .tooManyOctets
  else if (memoryLimit : Int) ≤ n then .error .noMemory
  else .ok (List.replicate n.toNat 0)

/-- A number below 256 as an octet. -/
def octet (v : Value) : Except Fault UInt8 :=
  match v.int? with
  | none => .error (.notInteger v.qualifiedFamily)
  | some n => if 0 ≤ n ∧ n < 256 then .ok (UInt8.ofNat n.toNat) else .error .byteRange

/-- The octets of content that is no text. -/
def octets : Value → Except Fault Bytes
  | .bytes octets => .ok octets
  | .int n => zeros n
  | .bool b => zeros (if b then 1 else 0)
  | v => v.walkThrough (List.mapM octet) (.notBytes v.qualifiedFamily)

/-- What stands before the reason of a failure to convert content that makes no octets. -/
def notBytesHeading : Text := "Content is not bytes or text: ".toList

/-- What stands before the reason of a failure to convert octets that are no UTF-8. -/
def notUtf8Heading : Text := "Content is not valid UTF-8: ".toList

/-- What stands before a fault of content that is a failure to convert it. Content may raise what
octets that are no UTF-8 raise. -/
def heading? : Fault → Option Text
  | .notBytes _ | .notInteger _ => some notBytesHeading
  | .refused e =>
    match e.kind with
    | .type => some notBytesHeading
    | .decoding => some notUtf8Heading
    | _ => none
  | _ => none

/-- The text of content: a text itself, or what octets say in UTF-8. Content that is neither, and
octets that say nothing, are conversion failures; numbers that make no octets are not. -/
def text (content : Value) (mediaType : Text) : Except Fault Text :=
  match content.text? with
  | some s => .ok s
  | none =>
    match octets content with
    | .error e =>
      match heading? e with
      | some heading => do .error (.conversion (some mediaType) (heading ++ (← e.wording)))
      | none => .error e
    | .ok octets =>
      match Utf8.decode octets with
      | .ok s => .ok s
      | .error e => .error (.conversion (some mediaType) (notUtf8Heading ++ e.message))

end AuditTrail.Content
