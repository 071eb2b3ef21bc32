/-
A filter made from options by name, as files and callers give them. Flags are understood in several
spellings, patterns as lists or as one text with commas; options that are not known are passed
over. Every option that cannot be used is complained about, in the order of the options.
-/
import AuditTrail.Fault
import AuditTrail.Filter.Basic
import AuditTrail.Text.Blank
import AuditTrail.Value.Sequence

namespace AuditTrail

-- ==================================================== flags

namespace Flag

/-- The words for yes, in lower case. -/
def yesWords : List Text :=
  ["1".toList, "on".toList, "t".toList, "true".toList, "y".toList, "yes".toList]

/-- The words for no, in lower case. -/
def noWords : List Text :=
  ["0".toList, "off".toList, "f".toList, "false".toList, "n".toList, "no".toList]

/-- The flag that a word stands for; letter case does not matter. -/
def ofWord? (s : Text) : Option Bool :=
  let word := s.map Char.toLower
  if yesWords.contains word then some true
  else if noWords.contains word then some false
  else none

/-- Why a value is no flag. -/
inductive Error where
  /-- The value is of a type that has flags, but stands for none. -/
  | unclear
  /-- The value is of a type that has no flags. -/
  | type
  deriving DecidableEq, Repr

/-- Whether a number fits into 64 bits with a sign. -/
def isShort (n : Int) : Bool := decide (-(Nat.pow 2 63 : Int) ≤ n ∧ n < Nat.pow 2 63)

/-- The flag that a number stands for. -/
def ofInt (n : Int) : Except Error Bool :=
  if n = 0 then .ok false else if n = 1 then .ok true else .error .unclear

/-- The flag that a value stands for. -/
def ofValue (v : Value) : Except Error Bool :=
  let ofText (s : Text) : Except Error Bool :=
    match ofWord? s with
    | some b => .ok b
    | none => .error .unclear
  match v with
  | .bool b => .ok b
  | .text s => ofText s
  | .term t => ofText t.wire
  | .bytes octets =>
    match Utf8.decode octets with
    | .ok s => ofText s
    | .error _ => .error .unclear
  | .int n => if isShort n then ofInt n else .error .type
  | .float x =>
    match x.toInt? with
    | some n => if isShort n then ofInt n else .error .type
    | none => .error .type
  | _ => .error .type

/-- The complaint about an option that is no flag. -/
def Error.issue (location : Text) (input : Value) : Error → Issue
  | .unclear =>
    ⟨location, "bool_parsing".toList,
      "Input should be a valid boolean, unable to interpret input".toList, input⟩
  | .type => ⟨location, "bool_type".toList, "Input should be a valid boolean".toList, input⟩

end Flag

-- ==================================================== patterns

namespace Patterns

/-- The patterns without the white space around them and without blank ones. -/
def clean (patterns : List Text) : List Text :=
  (patterns.map Text.trim).filter fun s => !s.isEmpty

/-- The patterns of one text, between its commas. -/
def ofText (s : Text) : List Text := clean (Text.splitAt ',' s)

/-- The texts of items that are taken as they are, or the complaints about those that are none. -/
def ofItems (location : Text) (index : Nat) : List Value → List Text × List Issue
  | [] => ([], [])
  | v :: rest =>
    let (texts, issues) := ofItems location (index + 1) rest
    let place := location ++ '.' :: Text.ofNat index
    match v.text?, v with
    | some s, _ => (s :: texts, issues)
    | none, .bytes octets =>
      match Utf8.decode octets with
      | .ok s => (s :: texts, issues)
      | .error _ =>
        (texts, ⟨place, "string_unicode".toList,
          ("Input should be a valid string, unable to parse raw data as a unicode " ++
            "string").toList, v⟩ :: issues)
    | none, v =>
      (texts,
        ⟨place, "string_type".toList, "Input should be a valid string".toList, v⟩ :: issues)

/-- The complaint about an object that breaks off the walk through it at some item. -/
def brokenIssue (location : Text) (index : Nat) (e : Objection) (v : Value) : Issue :=
  ⟨location ++ '.' :: Text.ofNat index, "iteration_error".toList,
    "Error iterating over object, error: ".toList ++ e.family ++ ": ".toList ++ e.message, v⟩

/-- The items of a value that is taken as it is: of anything that can be walked through but texts,
octets and maps. -/
def takenItems (location : Text) (v : Value.Unfolded) : Except (List Issue) (List Value) :=
  let refused : Except (List Issue) (List Value) :=
    .error [⟨location, "list_type".toList, "Input should be a valid list".toList, v.whole⟩]
  match v.whole with
  | .set _ => .ok v.elements
  | .bytes _ | .map _ => refused
  | w =>
    match w.items?, w.broken? with
    | some items, _ => .ok items
    | none, some (items, e) => .error [brokenIssue location items.length e w]
    | none, none => refused

/-- The patterns that a value stands for, or the complaints about it. Lists, tuples and texts are
cleaned, what else has items is taken as it is. -/
def ofValue (location : Text) (v : Value.Unfolded) : Except (List Issue) (List Text) :=
  match v.whole with
  | .null => .ok []
  | .text s => .ok (ofText s)
  | .term t => .ok (ofText t.wire)
  | .list _ | .tuple _ =>
    match v.elements.findSome? Value.plainSilence? with
    | some s =>
      .error [⟨location, "value_error".toList,
        "Value error, ".toList ++ (Fault.ofSilence s).message, v.whole⟩]
    | none => .ok (clean (v.elements.map Value.plain))
  | _ => do
    let items ← takenItems location v
    match ofItems location 0 items with
    | (texts, []) => .ok texts
    | (_, issues) => .error issues

end Patterns

-- ==================================================== filters

namespace Filter

/-- The name of the flag that drops the authorization header. -/
def excludeSensitiveHeadersName : Text := "exclude_sensitive_headers".toList

/-- The name of the flag that lets bodies be recorded. -/
def logRequestBodyName : Text := "log_request_body".toList

/-- The name of the patterns of headers. -/
def ignoreHeadersName : Text := "ignore_headers".toList

/-- The name of the patterns of parameters. -/
def ignoreUrlParamsName : Text := "ignore_url_params".toList

/-- The title of a report about a filter. -/
def title : Text := "AuditFilter".toList

/-- Options by name. -/
abbrev Options := List (Value × Value.Unfolded)

/-- The options of a map. -/
def Options.ofEntries (entries : Value.Entries) : Options :=
  entries.map fun e => (e.1, .of e.2)

/-- A flag among the options, and the complaints about it. -/
def flagOption (options : Options) (name : Text) (absent : Bool) : Bool × List Issue :=
  match Value.lookupText options name with
  | none => (absent, [])
  | some v =>
    match Flag.ofValue v.whole with
    | .ok b => (b, [])
    | .error e => (absent, [e.issue name v.whole])

/-- Patterns among the options, and the complaints about them. -/
def patternOption (options : Options) (name : Text) : List Text × List Issue :=
  match Value.lookupText options name with
  | none => ([], [])
  | some v =>
    match Patterns.ofValue name v with
    | .ok patterns => (patterns, [])
    | .error issues => ([], issues)

/-- The filter with some options. -/
def ofOptions (options : Options) : Except Report Filter :=
  let sensitive := flagOption options excludeSensitiveHeadersName true
  let body := flagOption options logRequestBodyName true
  let headers := patternOption options ignoreHeadersName
  let params := patternOption options ignoreUrlParamsName
  match sensitive.2 ++ body.2 ++ headers.2 ++ params.2 with
  | [] => .ok ⟨sensitive.1, body.1, headers.1, params.1⟩
  | issues => .error ⟨title, issues⟩

/-- The options of a filter. -/
def toOptions (f : Filter) : Value.Entries :=
  [(.text excludeSensitiveHeadersName, .bool f.excludeSensitiveHeaders),
   (.text logRequestBodyName, .bool f.logRequestBody),
   (.text ignoreHeadersName, .list (f.ignoreHeaders.map .text)),
   (.text ignoreUrlParamsName, .list (f.ignoreUrlParams.map .text))]

end Filter

end AuditTrail
