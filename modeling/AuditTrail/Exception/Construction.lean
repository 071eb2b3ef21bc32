/-
Exceptions made from their class and arguments. Most classes state their arguments as they are;
those for keys, for the operating system, for text encodings, for source text and for groups have
forms of their own, and so have the library's.
-/
import AuditTrail.Content.Octets
import AuditTrail.Exception.Basic
import AuditTrail.Signature
import AuditTrail.Value.Equality

namespace AuditTrail.Raised

-- ==================================================== messages

/-- The message of an exception that states its arguments. -/
def messageOfArguments : List Value → Except Fault Text
  | [] => .ok []
  | [v] => v.plainText
  | args => Value.quotedText (.tuple args)

/-- The quoted form of an exception. -/
def quotedCall (family : Text) : List Value → Except Fault Text
  | [v] => do .ok (family ++ '(' :: (← v.quotedText) ++ [')'])
  | args => do .ok (family ++ (← (Value.tuple args).quotedText))

/-- The line that states an exception of some class with a message. -/
def finalLine (title message : Text) : Text :=
  if message.isEmpty then title else title ++ ": ".toList ++ message

/-- An exception without members that states a message. -/
def plainly (family title : Text) (args : List Value) (message : Except Fault Text)
    (ordinary : Bool) : Raised :=
  .mk
    { family := family
      statement := .ok ⟨[], finalLine title (Headline.orUnwritable message)⟩
      plain := message
      quoted := quotedCall family args
      ordinary := ordinary
      notes := [] } none none false []

/-- The classes that are not of the ordinary kind. -/
def extraordinary : List Text :=
  ["BaseException".toList, "BaseExceptionGroup".toList, "GeneratorExit".toList,
   "KeyboardInterrupt".toList, "SystemExit".toList]

-- ==================================================== the operating system

/-- The class for errors of the operating system and its other names. -/
def systemNames : List Text :=
  ["OSError".toList, "EnvironmentError".toList, "IOError".toList]

/-- The classes for particular errors, and the numbers of those. -/
def systemClasses : List (Text × List Int) :=
  [("BlockingIOError".toList, [11, 114, 115]), ("BrokenPipeError".toList, [32, 108]),
   ("ChildProcessError".toList, [10]), ("ConnectionError".toList, []),
   ("ConnectionAbortedError".toList, [103]), ("ConnectionRefusedError".toList, [111]),
   ("ConnectionResetError".toList, [104]), ("FileExistsError".toList, [17]),
   ("FileNotFoundError".toList, [2]), ("IsADirectoryError".toList, [21]),
   ("NotADirectoryError".toList, [20]), ("InterruptedError".toList, [4]),
   ("PermissionError".toList, [13, 1]), ("ProcessLookupError".toList, [3]),
   ("TimeoutError".toList, [110])]

/-- The class for an error with some number; what is no number tells nothing. -/
def systemClassOf (number : Value) : Text :=
  match systemClasses.find? fun c => c.2.any fun n => number.int? == some n with
  | some c => c.1
  | none => "OSError".toList

/-- Whether a value is a number, which then has to be an amount. -/
def isAmount (v : Value) : Except Fault Bool :=
  match v.int?, v with
  | some n, _ =>
    if n < -(Content.countLimit : Int) ∨ (Content.countLimit : Int) ≤ n then .error .hugeAmount
    else .ok true
  | none, .float x => .error (.notInteger (Value.float x).qualifiedFamily)
  | none, _ => .ok false

/-- An error of the operating system: a number, its wording, and perhaps the file concerned and
another one. What stands in the place of the file may instead be an amount that was written. -/
def systemError (family : Text) (args : List Value) : Except Fault Raised := do
  match args with
  | number :: wording :: rest =>
    if 3 < rest.length then
      .ok (plainly family family args (messageOfArguments args) true)
    else
      let family := if family == "OSError".toList then systemClassOf number else family
      let file := rest.headD .null
      let other := rest.getD 2 .null
      let counts ← if family == "BlockingIOError".toList then isAmount file else .ok false
      let stated := do
        let number ← number.plainText
        let wording ← wording.plainText
        let base := "[Errno ".toList ++ number ++ "] ".toList ++ wording
        match file, other with
        | .null, _ => .ok base
        | file, .null =>
          if counts then .ok base else .ok (base ++ ": ".toList ++ (← file.quotedText))
        | file, other =>
          if counts then .ok base
          else
            .ok (base ++ ": ".toList ++ (← file.quotedText) ++ " -> ".toList ++
              (← other.quotedText))
      let kept :=
        match file with
        | .null => args
        | _ => if counts then args else [number, wording]
      .ok (plainly family family kept stated true)
  | args => .ok (plainly family family args (messageOfArguments args) true)

-- ==================================================== text encodings

/-- An argument that has to be a text, as it is shown. -/
def textArgument (position : Nat) (v : Value) : Except Fault Text :=
  match v.text? with
  | some _ => .ok v.plain
  | none =>
    let found := match v with | .null => "None".toList | v => v.qualifiedFamily
    .error (.arguments ("argument ".toList ++ Text.ofNat position ++ " must be str, not ".toList ++
      found))

/-- An argument that has to be a position. -/
def integerArgument (v : Value) : Except Fault Int :=
  match v.int? with
  | some n =>
    if n < -(Content.countLimit : Int) ∨ (Content.countLimit : Int) ≤ n then .error .hugePosition
    else .ok n
  | none => .error (.notInteger v.qualifiedFamily)

/-- A wrong number of arguments. -/
def wrongCount {α : Type} (expected given : Nat) : Except Fault α :=
  .error (.arguments ("function takes exactly ".toList ++ Text.ofNat expected ++
    " arguments (".toList ++ Text.ofNat given ++ " given)".toList))

/-- Which of the things between two positions are concerned: one thing, or several. -/
def spanned (one many : Text) (shown : Option Text) (start stop : Int) : Text :=
  match shown with
  | some s => one ++ s ++ " in position ".toList ++ Text.ofInt start
  | none =>
    many ++ " in position ".toList ++ Text.ofInt start ++ '-' ::
      Text.ofInt ((stop - 1).bmod (Nat.pow 2 64))

/-- The thing at a position, if it is the only one before another position. -/
def onlyOne {α : Type} (things : List α) (start stop : Int) : Option α :=
  if stop = start + 1 ∧ 0 ≤ start then things[start.toNat]? else none

/-- The octet that an error names, if it concerns only one. In the eight places before the first
octet all bits are set. -/
def onlyOctet (octets : Bytes) (start stop : Int) : Option UInt8 :=
  if stop = start + 1 ∧ -8 ≤ start ∧ start < 0 then some 0xFF else onlyOne octets start stop

/-- A character by its number. -/
def numberedChar (c : Char) : Text :=
  if c.toNat < 0x100 then '\\' :: 'x' :: Text.hexPadded 2 c.toNat
  else if c.toNat < 0x10000 then '\\' :: 'u' :: Text.hexPadded 4 c.toNat
  else '\\' :: 'U' :: Text.hexPadded 8 c.toNat

/-- An error of decoding octets. -/
def decodeError (family : Text) (args : List Value) : Except Fault Raised := do
  match args with
  | [encoding, object, start, stop, reason] => do
    let encoding ← textArgument 1 encoding
    let start ← integerArgument start
    let stop ← integerArgument stop
    let reason ← textArgument 5 reason
    match object with
    | .bytes octets =>
      let shown := (onlyOctet octets start stop).map fun b =>
        " 0x".toList ++ Text.hexPadded 2 b.toNat
      let message := '\x27' :: encoding ++
        spanned "' codec can't decode byte".toList "' codec can't decode bytes".toList shown start
          stop ++ ": ".toList ++ reason
      .ok (plainly family family args (.ok message) true)
    | v => .error (.arguments ("a bytes-like object is required, not ".toList ++
        Text.quoted v.qualifiedFamily))
  | args => wrongCount 5 args.length

/-- An error of encoding or translating a text. -/
def encodeError (family : Text) (verb : Text) (encoding : Option Value) (args : List Value)
    (object start stop reason : Value) : Except Fault Raised := do
  let first := if encoding.isSome then 2 else 1
  let lead ←
    match encoding with
    | some e => do .ok ('\x27' :: (← textArgument 1 e) ++ "' codec ".toList)
    | none => .ok []
  let _ ← textArgument first object
  let start ← integerArgument start
  let stop ← integerArgument stop
  let reason ← textArgument (first + 3) reason
  let shown := (onlyOne (object.text?.getD []) start stop).map fun c =>
    " '".toList ++ numberedChar c ++ ['\x27']
  let message := lead ++
    spanned ("can't ".toList ++ verb ++ " character".toList)
      ("can't ".toList ++ verb ++ " characters".toList) shown start stop ++ ": ".toList ++ reason
  .ok (plainly family family args (.ok message) true)

-- ==================================================== source text

/-- A value that a number was to be added to, or subtracted from, and has no such operation. -/
def noArithmetic {α : Type} (sign : Char) (v : Value) : Except Fault α :=
  .error (.arguments ("unsupported operand type(s) for ".toList ++ sign :: ": '".toList ++
    v.qualifiedFamily ++ "' and 'int'".toList))

/-- One more than a position. -/
def increased (v : Value) : Except Fault Value :=
  match v.int?, v with
  | some n, _ => .ok (.int (n + 1))
  | none, .float x => .ok (.float (x.add (.ofInt 1)))
  | none, .text _ | none, .term _ =>
    .error (.arguments "can only concatenate str (not \"int\") to str".toList)
  | none, .bytes _ => .error (.arguments "can't concat int to bytes".toList)
  | none, .list _ => .error (.arguments "can only concatenate list (not \"int\") to list".toList)
  | none, .tuple _ =>
    .error (.arguments "can only concatenate tuple (not \"int\") to tuple".toList)
  | none, v => noArithmetic '+' v

/-- A position counted from zero after some spaces, one that was counted from one before them. -/
def shifted (v : Value) (spaces : Nat) : Except Fault Value :=
  match v.int?, v with
  | some n, _ => .ok (.int (n - 1 - spaces))
  | none, .float x => .ok (.float ((x.add (.ofInt (-1))).add (.ofInt (-spaces))))
  | none, v => noArithmetic '-' v

/-- Whether a position after which nothing is marked was left open; it must be fit for a key. -/
def isOpen (v : Value) : Except Fault Bool :=
  match v, v.unhashable? with
  | .null, _ => .ok true
  | _, some t => .error (.unhashable t)
  | v, none => .ok (Value.same false v (.int 0))

/-- The position at which a mark ends: the one given, or right after the first one if none is
given or the mark would be empty. -/
def markEnd (offset endOffset : Value) : Except Fault Value := do
  let left ← isOpen endOffset
  let stop := if left then offset else endOffset
  let meets :=
    match left, offset with
    | true, .float x => x.equals x
    | true, _ => true
    | false, _ => Value.same false offset endOffset
  if meets || Value.same false stop (.int (-1)) then increased offset else .ok stop

/-- The mark below a line of source, whose `spaces` first characters are not shown. -/
def markLine (shown : Text) (spaces : Nat) (offset endOffset : Value) :
    Except Fault (List Text) := do
  let stop ← markEnd offset endOffset
  let start ← shifted offset spaces
  let stop ← shifted stop spaces
  match start, stop with
  | .int a, stop =>
    if a < 0 then .ok []
    else
      let blanks := (shown.take a.toNat).map fun c => if Text.isBlank c then c else ' '
      match stop with
      | .int b =>
        if b - a < -(Content.countLimit : Int) ∨ (Content.countLimit : Int) ≤ b - a then
          .error .hugeCount
        else if (Content.memoryLimit : Int) ≤ b - a then .error .noMemory
        else
          .ok [List.replicate 4 ' ' ++ blanks ++ List.replicate (b - a).toNat '^' ++ ['\n']]
      | v =>
        .error (.arguments ("can't multiply sequence by non-int of type '".toList ++ v.family ++
          ['\x27']))
  | .float x, _ =>
    if x == .nan || (x.isNegative && !x.isZero) then .ok []
    else
      .error (.arguments
        "slice indices must be integers or None or have an __index__ method".toList)
  | _, _ => .ok []

/-- The line of source that a syntax error concerns, and the mark below it. -/
def sourceLines (text offset endOffset : Value) : Except Fault (List Text) :=
  match text.text?, text with
  | none, .null => .ok []
  | none, .bytes _ => .error .textInBytes
  | none, v => .error (.missingAttribute v.qualifiedFamily "rstrip".toList)
  | some s, _ => do
    let line := (s.reverse.dropWhile (· == '\n')).reverse
    let shown := line.dropWhile fun c => c == ' ' || c == '\n' || c == '\x0C'
    let mark ←
      match offset with
      | .null => .ok []
      | offset => markLine shown (line.length - shown.length) offset endOffset
    .ok ((List.replicate 4 ' ' ++ shown ++ ['\n']) :: mark)

/-- What a syntax error tells about where it was found. -/
structure SyntaxPlace where
  file : Value
  line : Value
  offset : Value
  text : Value
  endLine : Value
  endOffset : Value

/-- The place that the arguments of a syntax error give. -/
def SyntaxPlace.ofArguments (args : List Value) : Except Fault SyntaxPlace :=
  match args with
  | [_, place] => do
    let parts ← place.items
    if parts.length < 4 then
      .error (.arguments ("function takes at least 4 arguments (".toList ++
        Text.ofNat parts.length ++ " given)".toList))
    else if 6 < parts.length then
      .error (.arguments ("function takes at most 6 arguments (".toList ++
        Text.ofNat parts.length ++ " given)".toList))
    else if parts.length = 5 then
      .error (.arguments "end_offset must be provided when end_lineno is provided".toList)
    else
      let part (i : Nat) : Value := parts.getD i .null
      .ok ⟨part 0, part 1, part 2, part 3, part 4, part 5⟩
  | _ => .ok ⟨.null, .null, .null, .null, .null, .null⟩

/-- What stands for a message that is missing. -/
def noDetail : Text := "<no detail available>".toList

/-- The lines that state a syntax error with a message. -/
def syntaxStatement (family : Text) (message : Value) (p : SyntaxPlace) :
    Except Fault Statement := do
  let line ←
    match p.line with
    | .null => .ok none
    | v => do .ok (some (← v.plainText))
  let _ ← p.endLine.plainText
  let place ←
    match line with
    | none => .ok []
    | some line => do
      let file ← if ← p.file.truth then p.file.plainText else .ok "<string>".toList
      .ok ["  File \"".toList ++ file ++ "\", line ".toList ++ line ++ ['\n']]
  let suffix ←
    match line, p.file with
    | none, .null => .ok []
    | none, file => do .ok (" (".toList ++ (← file.plainText) ++ [')'])
    | some _, _ => .ok []
  let source ← sourceLines p.text p.offset p.endOffset
  let message ← if ← message.truth then message.plainText else .ok noDetail
  .ok ⟨place ++ source, family ++ ": ".toList ++ message ++ suffix⟩

/-- The message of a syntax error: the name of the file without its directories and the line stand
in brackets behind it. A line beyond all counting is shown as the one before the first. -/
def syntaxMessage (message : Value) (p : SyntaxPlace) : Except Fault Text := do
  let message ← message.plainText
  let file := p.file.text?.map fun s => (Text.splitAt '/' s).getLast?.getD []
  let line :=
    match p.line with
    | .int n =>
      let counted := -(Content.countLimit : Int) ≤ n ∧ n < (Content.countLimit : Int)
      some ("line ".toList ++ Text.ofInt (if counted then n else -1))
    | _ => none
  .ok <|
    match file.toList ++ line.toList with
    | [] => message
    | parts => message ++ " (".toList ++ Text.joinWith ", ".toList parts ++ [')']

/-- An error of syntax: a message, and perhaps where in which file it was found. -/
def syntaxError (family : Text) (args : List Value) : Except Fault Raised := do
  let place ← SyntaxPlace.ofArguments args
  let message := args.headD .null
  .ok (.mk
    { family := family
      statement := syntaxStatement family message place
      plain := syntaxMessage message place
      quoted := quotedCall family args
      ordinary := true
      notes := [] } none none false [])

-- ==================================================== groups

/-- The members of a group: what each of them is, if it is an exception. -/
def groupMembers : Nat → List (Option Raised) → Except Fault (List Raised)
  | _, [] => .ok []
  | index, some r :: rest => do .ok (r :: (← groupMembers (index + 1) rest))
  | index, none :: _ =>
    .error (.groupItem index)

/-- A group with a message and members, which are given as what is known of the items of the
second argument. -/
def group (family : Text) (args : List Value) (items : List (Option Raised)) :
    Except Fault Raised := do
  match args with
  | [message, list] => do
    let message ←
      match message.text? with
      | some _ => .ok message.plain
      | none =>
        let found := match message with | .null => "None".toList | v => v.qualifiedFamily
        .error (.arguments
          ("BaseExceptionGroup.__new__() argument 1 must be str, not ".toList ++ found))
    match list with
    | .list _ | .tuple _ | .text _ | .bytes _ | .term _ => pure ()
    | _ => .error (.arguments "second argument (exceptions) must be a sequence".toList)
    let parts ← list.items
    if parts.isEmpty then .error .emptyGroup
    else
      let known := if items.isEmpty then parts.map fun _ => none else items
      let members ← groupMembers 0 known
      let ordinary := members.all (·.head.ordinary)
      if family == "ExceptionGroup".toList && !ordinary then
        .error (.arguments "Cannot nest BaseExceptions in an ExceptionGroup".toList)
      else
        let family := if ordinary then "ExceptionGroup".toList else family
        let text := message ++ " (".toList ++ Text.ofNat members.length ++
          (if members.length = 1 then " sub-exception)".toList else " sub-exceptions)".toList)
        .ok (.mk
          { family := family
            statement := .ok ⟨[], finalLine family text⟩
            plain := .ok text
            quoted := quotedCall family args
            ordinary := ordinary
            notes := [] } none none false members)
  | args =>
    .error (.arguments ("BaseExceptionGroup.__new__() takes exactly 2 arguments (".toList ++
      Text.ofNat args.length ++ " given)".toList))

-- ==================================================== the library's own

/-- Where the library's own exceptions are named. -/
def home : Text := "auditrecord.audit.errors".toList

/-- What tells the library's own exceptions from others of the same name. -/
def ownTitle (family : Text) : Text := home ++ '.' :: family

/-- The base of the library's exceptions states a message. -/
def baseSignature : Signature := ⟨"AuditError.__init__".toList, ["message".toList], 0⟩

/-- A failure to serialize has a reason, and perhaps a cause. -/
def serializationSignature : Signature :=
  ⟨"AuditSerializationError.__init__".toList, ["reason".toList], 1⟩

/-- A failure to convert has a media type and a reason, and perhaps a cause. -/
def conversionSignature : Signature :=
  ⟨"ContentConversionError.__init__".toList, ["media_type".toList, "reason".toList], 1⟩

/-- The message of one of the library's exceptions, and its parts by name; nothing for another
class. -/
def ownMessage? (family : Text) (args : List Value) :
    Except Fault (Option (Value × List (Text × Value))) := do
  let first := args.headD .null
  let second := args.getD 1 .null
  if family == "AuditError".toList || family == "AuditFilterLoadError".toList then do
    baseSignature.check args.length
    .ok (some (first, []))
  else if family == "AuditSerializationError".toList then do
    serializationSignature.check args.length
    .ok (some (.text (Fault.serialization (← first.plainText)).message,
      [("reason".toList, first)]))
  else if family == "ContentConversionError".toList then do
    conversionSignature.check args.length
    let mediaType ←
      if ← first.truth then do .ok (some (← first.plainText)) else .ok none
    .ok (some (.text (Fault.conversion mediaType (← second.plainText)).message,
      [("media_type".toList, first), ("reason".toList, second)]))
  else .ok none

-- ==================================================== all classes

/-- The classes that state their arguments as they are. -/
def plainNames : List Text :=
  ["ArithmeticError", "AssertionError", "AttributeError", "BaseException", "BufferError",
   "BytesWarning", "DeprecationWarning", "EOFError", "EncodingWarning", "Exception",
   "FloatingPointError", "FutureWarning", "GeneratorExit", "ImportError", "ImportWarning",
   "IndexError", "KeyboardInterrupt", "LookupError", "MemoryError", "ModuleNotFoundError",
   "NameError", "NotImplementedError", "OverflowError", "PendingDeprecationWarning",
   "RecursionError", "ReferenceError", "ResourceWarning", "RuntimeError", "RuntimeWarning",
   "StopAsyncIteration", "StopIteration", "SyntaxWarning", "SystemError", "SystemExit",
   "TypeError", "UnboundLocalError", "UnicodeError", "UnicodeWarning", "UserWarning",
   "ValueError", "Warning", "ZeroDivisionError"].map String.toList

/-- The exception of a class with some arguments; `items` says which items of the second one are
exceptions. -/
def construct (name : Text) (args : List Value) (items : List (Option Raised)) :
    Except Fault Raised := do
  let family := if systemNames.contains name then "OSError".toList else name
  match ← ownMessage? family args with
  | some (message, _) =>
    .ok (plainly family (ownTitle family) [message] (messageOfArguments [message]) true)
  | none =>
    if family == "OSError".toList || (systemClasses.lookup family).isSome then
      systemError family args
    else if family == "KeyError".toList then
      let message :=
        match args with
        | [key] => key.quotedText
        | args => messageOfArguments args
      .ok (plainly family family args message true)
    else if family == "UnicodeDecodeError".toList then decodeError family args
    else if family == "UnicodeEncodeError".toList then
      match args with
      | [encoding, object, start, stop, reason] =>
        encodeError family "encode".toList (some encoding) args object start stop reason
      | args => wrongCount 5 args.length
    else if family == "UnicodeTranslateError".toList then
      match args with
      | [object, start, stop, reason] =>
        encodeError family "translate".toList none args object start stop reason
      | args => wrongCount 4 args.length
    else if family == "SyntaxError".toList || family == "IndentationError".toList ||
        family == "TabError".toList then
      syntaxError family args
    else if family == "ExceptionGroup".toList || family == "BaseExceptionGroup".toList then
      group family args items
    else if plainNames.contains family then
      .ok (plainly family family args (messageOfArguments args) (!extraordinary.contains family))
    else .error (.unknownException "builtins".toList name)

/-- The exception with one more note, which has to be a text. -/
def addNote (r : Raised) (note : Value) : Except Fault Raised :=
  match note.text? with
  | some _ => .ok (r.withNote note.plain)
  | none =>
    .error (.arguments ("note must be a str, not ".toList ++ Text.quoted note.qualifiedFamily))

end AuditTrail.Raised
