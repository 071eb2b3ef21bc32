/-
Files that set variables, one statement a line: a name, perhaps after `export`, an equals sign and
a value, which may be quoted and then span lines. A comment ends a line; a statement that cannot be
read is passed over up to the end of its line. Values may refer to variables set elsewhere or
before. Line ends are line feeds.
-/
import AuditTrail.Text.Basic
import AuditTrail.Text.Blank

namespace AuditTrail.EnvFile

/-- A variable and its value; a name alone has none. -/
structure Binding where
  name : Text
  value : Option Text
  deriving DecidableEq, Repr

/-- A statement of a file: a binding, nothing, or something unreadable that begins in a line. -/
inductive Statement where
  | binding (b : Binding)
  | nothing
  | flawed (line : Nat)
  deriving DecidableEq, Repr

-- ==================================================== parts of a statement

/-- White space that ends no line. -/
def isInner (c : Char) : Bool := Text.isBlank c && c != '\n' && c != '\r'

/-- The text without the white space at its beginning, within the line. -/
def skipInner (s : Text) : Text := s.dropWhile isInner

/-- The text after `export` and white space, if it begins with them. -/
def skipExport (s : Text) : Text :=
  match Text.after? "export".toList s with
  | some (c :: rest) => if isInner c then skipInner rest else s
  | _ => s

/-- The characters of a name without quotes. -/
def isNameChar (c : Char) : Bool := c != '=' && c != '#' && !Text.isBlank c

/-- A name and the text after it; a comment has none. -/
def name? (s : Text) : Option (Option Text × Text) :=
  match s with
  | '#' :: _ => some (none, s)
  | '\x27' :: rest =>
    match Text.cutFirst '\x27' rest with
    | some ([], _) => none
    | some (name, rest) => some (some name, rest)
    | none => none
  | s =>
    let name := s.takeWhile isNameChar
    if name.isEmpty then none else some (some name, s.dropWhile isNameChar)

/-- The content of a quoted value and the text after it, when the opening quote was read; a
character after a backslash ends nothing. The second argument is the content so far, reversed. -/
def quotedFrom (quote : Char) : Text → Text → Option (Text × Text)
  | _, [] => none
  | acc, '\\' :: c :: rest => quotedFrom quote (c :: '\\' :: acc) rest
  | acc, c :: rest =>
    if c = quote then some (acc.reverse, rest)
    else if c = '\\' then none
    else quotedFrom quote (c :: acc) rest

/-- What a character stands for after a backslash, between single or double quotes. -/
def escaped? (quote c : Char) : Option Char :=
  if c = '\\' ∨ c = '\x27' then some c
  else if quote = '\x27' then none
  else if c = '\x22' then some c
  else if c = 'a' then some '\x07'
  else if c = 'b' then some '\x08'
  else if c = 'f' then some '\x0C'
  else if c = 'n' then some '\n'
  else if c = 'r' then some '\r'
  else if c = 't' then some '\t'
  else if c = 'v' then some '\x0B'
  else none

/-- The content of a quoted value with its escapes replaced. -/
def unescape (quote : Char) : Text → Text
  | '\\' :: c :: rest =>
    match escaped? quote c with
    | some d => d :: unescape quote rest
    | none => '\\' :: unescape quote (c :: rest)
  | c :: rest => c :: unescape quote rest
  | [] => []

/-- A value of a line without the comment that white space separates from it. -/
def withoutComment : Bool → Text → Text
  | _, [] => []
  | blank, c :: rest =>
    if blank && c == '#' then [] else c :: withoutComment (Text.isBlank c) rest

/-- A value and the text after it; `blank` says whether white space stands before it, since only
then a comment may begin at once. -/
def value? (blank : Bool) (s : Text) : Option (Text × Text) :=
  match s with
  | '\x27' :: rest =>
    (quotedFrom '\x27' [] rest).map fun r => (unescape '\x27' r.1, r.2)
  | '\x22' :: rest =>
    (quotedFrom '\x22' [] rest).map fun r => (unescape '\x22' r.1, r.2)
  | s =>
    let line := s.takeWhile fun c => c != '\n' && c != '\r'
    some (Text.trimEnd (withoutComment blank line), s.drop line.length)

/-- The text after a comment, if one begins here. -/
def skipComment (s : Text) : Text :=
  match skipInner s with
  | '#' :: rest => rest.dropWhile fun c => c != '\n' && c != '\r'
  | _ => s

/-- The text after the end of a line. -/
def endOfLine? (s : Text) : Option Text :=
  match skipInner s with
  | [] => some []
  | c :: rest => if c = '\n' ∨ c = '\r' then some rest else none

/-- The text after the rest of a line. -/
def skipLine (s : Text) : Text :=
  (s.dropWhile fun c => c != '\n' && c != '\r').drop 1

-- ==================================================== statements

/-- The statement after the name, or the text where it cannot be read. -/
def finish (name : Option Text) (value : Option Text) (s : Text) :
    Except Text (Statement × Text) :=
  match endOfLine? (skipComment s) with
  | some rest =>
    .ok (match name with | some n => .binding ⟨n, value⟩ | none => .nothing, rest)
  | none => .error (skipComment s)

/-- The statement at the beginning of a text, or the text where it cannot be read. -/
def statement (s : Text) : Except Text (Statement × Text) :=
  match Text.trimStart s with
  | [] => .ok (.nothing, [])
  | s =>
    let s := skipExport s
    match name? s with
    | none => .error s
    | some (name, rest) =>
      match skipInner rest with
      | '=' :: rest =>
        let s := skipInner rest
        match value? (s.length < rest.length) s with
        | some (value, rest) => finish name (some value) rest
        | none => .error s
      | rest => finish name none rest

/-- The statements of a text whose first line has some number; the first argument bounds how many
there are. -/
def statementsWithin : Nat → Nat → Text → List Statement
  | 0, _, _ => []
  | _, _, [] => []
  | fuel + 1, line, s =>
    let (found, rest) :=
      match statement s with
      | .ok r => r
      | .error rest => (.flawed line, skipLine rest)
    let passed := (s.take (s.length - rest.length)).countP (· == '\n')
    found :: statementsWithin fuel (line + passed) rest

/-- The text without the mark of byte order at its beginning. -/
def dropMark : Text → Text
  | '\uFEFF' :: s => s
  | s => s

/-- The statements of a text. -/
def statements (s : Text) : List Statement := statementsWithin (s.length + 1) 1 (dropMark s)

/-- The lines in which unreadable statements begin. -/
def flawedLines (s : Text) : List Nat :=
  (statements s).filterMap fun x =>
    match x with
    | .flawed line => some line
    | _ => none

-- ==================================================== references

/-- The name of a reference and what stands in its place if the variable is not set, and the text
after it, when the dollar sign and the opening brace were read. -/
def reference? (s : Text) : Option (Text × Text × Text) :=
  let name := s.takeWhile fun c => c != '\x7d' && c != ':'
  match s.drop name.length with
  | '\x7d' :: rest => some (name, [], rest)
  | ':' :: '-' :: rest =>
    (Text.cutFirst '\x7d' rest).map fun r => (name, r.1, r.2)
  | _ => none

/-- A value with its references replaced; the number bounds the characters. -/
def expandWithin (find : Text → Option Text) : Nat → Text → Text
  | 0, s => s
  | _, [] => []
  | fuel + 1, '$' :: '\x7b' :: s =>
    match reference? s with
    | some (name, default, rest) => (find name).getD default ++ expandWithin find fuel rest
    | none => '$' :: expandWithin find fuel ('\x7b' :: s)
  | fuel + 1, c :: s => c :: expandWithin find fuel s

/-- A value with its references replaced. -/
def expand (find : Text → Option Text) (s : Text) : Text := expandWithin find s.length s

/-- The bindings after one was made: a name keeps its place. -/
def put (b : Binding) : List Binding → List Binding
  | [] => [b]
  | c :: rest => if c.name = b.name then b :: rest else c :: put b rest

/-- The value of a reference: of a binding made before, or else of the environment. A name bound to
no value stands for nothing. -/
def lookup (environment : List (Text × Text)) (bound : List Binding) (name : Text) :
    Option Text :=
  match bound.find? fun b => b.name == name with
  | some b => some (b.value.getD [])
  | none => environment.lookup name

/-- The bindings of some statements, with the references in their values replaced. -/
def bindings (environment : List (Text × Text)) (s : Text) : List Binding :=
  (statements s).foldl
    (fun bound x =>
      match x with
      | .binding b =>
        put ⟨b.name, b.value.map (expand (lookup environment bound))⟩ bound
      | _ => bound) []

end AuditTrail.EnvFile
