/-
Password hashes inside a text. Three families of encodings are known; each is recognised at a
position by reading as far as its form allows, and no position begins hashes of two families. One
walk over the text replaces every hash by a placeholder and goes on after it.
-/
import AuditTrail.Text.Digit

namespace AuditTrail

/-- A family of password hash encodings. -/
inductive HashFamily where
  | bcrypt
  | pbkdf2
  | argon2
  deriving DecidableEq, Repr, Inhabited

namespace HashFamily

/-- The families, in the order in which they are tried. -/
def all : List HashFamily := [.bcrypt, .pbkdf2, .argon2]

/-- The name of a family. -/
def label : HashFamily → Text
  | .bcrypt => "bcrypt".toList
  | .pbkdf2 => "pbkdf2".toList
  | .argon2 => "argon2".toList

/-- The name of the family's group among the alternatives. -/
def groupName : HashFamily → Text
  | .bcrypt => "BCRYPT".toList
  | .pbkdf2 => "PBKDF2".toList
  | .argon2 => "ARGON2".toList

end HashFamily

namespace Redaction

/-- What stands for a hash after redaction. -/
def hashPlaceholder : Text := "__HASH__".toList

/-- The document whose content holds password hashes. -/
def usersDocument : Text := "internalusers".toList

-- ==================================================== parts of a hash

/-- The text after one expected character. -/
def afterChar (c : Char) : Text → Option Text
  | [] => none
  | d :: rest => if d = c then some rest else none

/-- The text after the longest run of characters with a property, at least one. -/
def afterSome (p : Char → Bool) : Text → Option Text
  | [] => none
  | c :: rest => if p c then some (rest.dropWhile p) else none

/-- The text after exactly `n` characters with a property. -/
def afterExactly (p : Char → Bool) : Nat → Text → Option Text
  | 0, s => some s
  | _ + 1, [] => none
  | n + 1, c :: rest => if p c then afterExactly p n rest else none

/-- The characters of the base64 alphabet. -/
def isBase64 (c : Char) : Bool :=
  ('A' ≤ c && c ≤ 'Z') || ('a' ≤ c && c ≤ 'z') || Text.isAsciiDigit c || c == '+' || c == '/'

/-- The text without up to two equals signs at its beginning. -/
def dropPadding : Text → Text
  | '=' :: '=' :: rest => rest
  | '=' :: rest => rest
  | s => s

/-- The text after a base64 run and its padding. -/
def afterBase64 (s : Text) : Option Text := (afterSome isBase64 s).map dropPadding

/-- The text after a salt, a dollar sign and a digest. -/
def afterSaltAndDigest (s : Text) : Option Text := do
  let s ← afterBase64 s
  let s ← afterChar '$' s
  afterBase64 s

/-- The text after one parameter: a small letter, an equals sign, digits, perhaps a comma. -/
def afterParameter : Text → Option Text
  | c :: '=' :: rest =>
    if 'a' ≤ c ∧ c ≤ 'z' then
      (afterSome Text.isDigit rest).map fun s =>
        match s with
        | ',' :: more => more
        | s => s
    else none
  | _ => none

/-- The text after all the parameters at its beginning; the number bounds how many there are. -/
def dropParameters : Nat → Text → Text
  | 0, s => s
  | fuel + 1, s =>
    match afterParameter s with
    | some rest => dropParameters fuel rest
    | none => s

/-- The text after the name of an argon2 variant. -/
def afterVariant (s : Text) : Option Text :=
  match s with
  | 'i' :: 'd' :: '$' :: rest => some ('$' :: rest)
  | 'i' :: '$' :: rest => some ('$' :: rest)
  | 'd' :: '$' :: rest => some ('$' :: rest)
  | _ => none

-- ==================================================== whole hashes

/-- The text after a bcrypt hash: a version letter, then 56 characters of one line. -/
def afterBcrypt : Text → Option Text
  | '$' :: '2' :: v :: '$' :: rest =>
    if v = 'a' ∨ v = 'y' ∨ v = 'b' then afterExactly (· != '\n') 56 rest else none
  | _ => none

/-- The text after a PBKDF2 hash: iterations, length, salt and digest. -/
def afterPbkdf2 (s : Text) : Option Text := do
  let s ← afterChar '$' s
  let s ← afterSome Text.isDigit s
  let s ← afterChar '$' s
  let s ← afterSome Text.isDigit s
  let s ← afterChar '$' s
  afterSaltAndDigest s

/-- The text after an argon2 hash: variant, version, parameters, salt and digest. -/
def afterArgon2 (s : Text) : Option Text := do
  let s ← Text.after? "$argon2".toList s
  let s ← afterVariant s
  let s ← Text.after? "$v=".toList s
  let s ← afterSome Text.isDigit s
  let s ← afterChar '$' s
  let s ← afterParameter s
  let s ← afterChar '$' (dropParameters s.length s)
  afterSaltAndDigest s

/-- The text after a hash of a family at the beginning of a text. -/
def afterHash : HashFamily → Text → Option Text
  | .bcrypt => afterBcrypt
  | .pbkdf2 => afterPbkdf2
  | .argon2 => afterArgon2

/-- The length of a hash of a family at the beginning of a text. -/
def hashLength? (f : HashFamily) (s : Text) : Option Nat :=
  (afterHash f s).map fun rest => s.length - rest.length

/-- The first family that has a hash at the beginning of a text, and the length of the hash. -/
def hashAt? (s : Text) : Option (HashFamily × Nat) :=
  HashFamily.all.findSome? fun f => (hashLength? f s).map fun n => (f, n)

-- ==================================================== spans and replacement

/-- A hash inside a text. -/
structure HashSpan where
  family : HashFamily
  start : Nat
  length : Nat
  deriving DecidableEq, Repr

/-- The hashes of a text that begins at position `pos`; its first `skip` characters belong to a
hash that was found already. -/
def hashSpansFrom (pos : Nat) : Nat → Text → List HashSpan
  | _, [] => []
  | skip + 1, _ :: rest => hashSpansFrom (pos + 1) skip rest
  | 0, c :: rest =>
    match hashAt? (c :: rest) with
    | some (f, n) => ⟨f, pos, n⟩ :: hashSpansFrom (pos + 1) (n - 1) rest
    | none => hashSpansFrom (pos + 1) 0 rest

/-- The hashes of a text, in order and without overlap. -/
def hashSpans (s : Text) : List HashSpan := hashSpansFrom 0 0 s

/-- The text with its hashes replaced; its first `skip` characters belong to a hash that was
replaced already. -/
def replaceHashesFrom : Nat → Text → Text
  | _, [] => []
  | skip + 1, _ :: rest => replaceHashesFrom skip rest
  | 0, c :: rest =>
    match hashAt? (c :: rest) with
    | some (_, n) => hashPlaceholder ++ replaceHashesFrom (n - 1) rest
    | none => c :: replaceHashesFrom 0 rest

/-- The text with every hash replaced by the placeholder. -/
def replaceHashes (s : Text) : Text := replaceHashesFrom 0 s

/-- The content of a configuration document without password hashes: only the content of the users
document is touched. -/
def redactContent (document : Option Text) (content : Text) : Text :=
  if document = some usersDocument then replaceHashes content else content

end Redaction

end AuditTrail
