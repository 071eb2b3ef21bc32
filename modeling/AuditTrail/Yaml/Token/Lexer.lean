/-
The tokens of a source text. Indentation becomes tokens that open and close blocks, and a key that
is only recognised by the colon after it gets its token put in front of it when the colon is
found. Where the text is no sequence of tokens, the failure stands after the tokens that a reader
could have seen before it.
-/
import AuditTrail.Yaml.Input
import AuditTrail.Yaml.Token
import AuditTrail.Yaml.Token.Scalar

namespace AuditTrail.Yaml

/-- A place where a key may have begun, if a colon follows on the same line. -/
structure PossibleKey where
  /-- The depth of flow brackets around it. -/
  level : Int
  /-- How many tokens stand before it. -/
  index : Nat
  /-- Whether the block structure needs it to be a key. -/
  required : Bool
  mark : Mark
  deriving DecidableEq, Repr

/-- The state of the lexer. -/
structure Lexer where
  /-- The number of cells of the whole text, which bounds every walk through it. -/
  bound : Nat
  /-- What stands where the text ends, if that is not the end of the source. -/
  beyond : Option Failure
  rest : Cells
  /-- The tokens so far, the last one first. -/
  tokens : List Token
  count : Nat
  /-- The depth of flow brackets. -/
  level : Int
  /-- The column of the current block, and those of the blocks around it. -/
  indent : Int
  outer : List Int
  /-- Whether a key may begin here without an indicator. -/
  allowKey : Bool
  keys : List PossibleKey

namespace Lexer

/-- The state before a text. -/
def start (s : Cells) (beyond : Option Failure) : Lexer :=
  { bound := s.length, beyond := beyond, rest := s
    tokens := [⟨.streamStart, Cells.mark s, Cells.mark s⟩], count := 1
    level := 0, indent := -1, outer := [], allowKey := true, keys := [] }

/-- The place of the next character. -/
def mark (l : Lexer) : Mark := Cells.mark l.rest

/-- The column of the next character. -/
def column (l : Lexer) : Nat := Cells.column l.rest

/-- The state with one token more. -/
def push (l : Lexer) (t : Token) : Lexer := { l with tokens := t :: l.tokens, count := l.count + 1 }

/-- The state with a token put in front of all tokens from an index on. -/
def insertAt (l : Lexer) (index : Nat) (t : Token) : Lexer :=
  let later := l.count - index
  { l with tokens := l.tokens.take later ++ t :: l.tokens.drop later, count := l.count + 1 }

/-- A token of no length here. -/
def emptyToken (l : Lexer) (kind : TokenKind) : Token := ⟨kind, l.mark, l.mark⟩

/-- The state after an indicator of `n` characters that is a token of its own. -/
def indicator (l : Lexer) (kind : TokenKind) (n : Nat) : Lexer :=
  let rest := l.rest.drop n
  { l.push ⟨kind, l.mark, Cells.mark rest⟩ with rest := rest }

-- ==================================================== possible keys

/-- The complaint about a key that has no colon. -/
def missingColon {α : Type} (k : PossibleKey) (place : Mark) : Result α :=
  fail "while scanning a simple key".toList k.mark "could not find expected ':'".toList place

/-- Whether a possible key can no longer become one. -/
def isStale (l : Lexer) (k : PossibleKey) : Bool :=
  k.mark.line != l.mark.line || decide (1024 < l.mark.index - k.mark.index)

/-- The state without the keys that can no longer become keys. -/
def dropStale (l : Lexer) : Result Lexer :=
  match l.keys.find? fun k => l.isStale k && k.required with
  | some k => missingColon k l.mark
  | none => .ok { l with keys := l.keys.filter fun k => !l.isStale k }

/-- The state without a possible key at the current depth. -/
def dropKey (l : Lexer) : Result Lexer :=
  match l.keys.find? (·.level == l.level) with
  | some k =>
    if k.required then missingColon k l.mark
    else .ok { l with keys := l.keys.filter (·.level != l.level) }
  | none => .ok l

/-- The state in which a key may have begun here. -/
def saveKey (l : Lexer) : Result Lexer := do
  if l.allowKey then
    let required := l.level == 0 && l.indent == (l.column : Int)
    let l ← l.dropKey
    .ok { l with keys := l.keys ++ [⟨l.level, l.count, required, l.mark⟩] }
  else .ok l

/-- The number of tokens that no key can be put in front of any more. -/
def released (l : Lexer) : Nat := l.keys.foldl (fun n k => min n k.index) l.count

-- ==================================================== blocks

/-- The columns of the blocks left open when those right of a column are closed: the innermost,
the ones around it, and how many were closed. -/
def closeBlocks (column : Int) : Int → List Int → Int × List Int × Nat
  | indent, [] => (indent, [], 0)
  | indent, o :: outer =>
    if column < indent then
      let (indent, outer, n) := closeBlocks column o outer
      (indent, outer, n + 1)
    else (indent, o :: outer, 0)

/-- The state after the blocks right of a column are closed; inside flow brackets there are no
blocks. -/
def unwind (l : Lexer) (column : Int) : Lexer :=
  if l.level != 0 then l
  else
    let (indent, outer, n) := closeBlocks column l.indent l.outer
    { l with
      tokens := List.replicate n (l.emptyToken .blockEnd) ++ l.tokens
      count := l.count + n, indent := indent, outer := outer }

/-- The state in which a block begins at a column, and whether one does. -/
def indentTo (l : Lexer) (column : Int) : Lexer × Bool :=
  if l.indent < column then ({ l with indent := column, outer := l.indent :: l.outer }, true)
  else (l, false)

/-- The state in which a block of some kind begins here, if none begins at this column yet. -/
def openBlock (l : Lexer) (kind : TokenKind) : Lexer :=
  let (l, opened) := l.indentTo l.column
  if opened then l.push (l.emptyToken kind) else l

-- ==================================================== directives, names, tags

/-- The letters of names: ASCII letters and digits, hyphens, underscores. -/
def isNameChar (c : Char) : Bool := c.isAlphanum || c == '-' || c == '_'

/-- The complaint about a character of a directive. -/
def badDirective {α : Type} (begin : Mark) (expected : Text) (s : Cells) : Result α :=
  fail "while scanning a directive".toList begin
    ("expected ".toList ++ expected ++ ", but found ".toList ++ shown (Cells.peek s))
    (Cells.mark s)

/-- A number of a version. Like any other it may have so many digits only. -/
def versionNumber (begin : Mark) (s : Cells) : Result (Nat × Cells) :=
  let digits := Cells.textWhile Char.isDigit s
  if digits.isEmpty then badDirective begin "a digit".toList s
  else if Numeral.digitLimit < digits.length then
    .error (.fault (.numeral (.tooManyDigits digits.length)))
  else
    .ok (digits.foldl (fun n c => n * 10 + (c.toNat - 0x30)) 0, Cells.skipWhile Char.isDigit s)

/-- The handle of a tag: an exclamation mark, or a name between two. -/
def tagHandle (thing : Text) (begin : Mark) (s : Cells) : Result (Text × Cells) :=
  let bad (s : Cells) : Result (Text × Cells) :=
    fail ("while scanning a ".toList ++ thing) begin
      ("expected '!', but found ".toList ++ shown (Cells.peek s)) (Cells.mark s)
  if Cells.peek s != '!' then bad s
  else
    let rest := s.drop 1
    if Cells.peek rest == ' ' then .ok (['!'], rest)
    else
      let name := Cells.textWhile isNameChar rest
      let rest := Cells.skipWhile isNameChar rest
      if Cells.peek rest == '!' then .ok ('!' :: name ++ ['!'], rest.drop 1) else bad rest

/-- The octets of the percent escapes at the beginning. -/
def uriOctets (thing : Text) (begin : Mark) : Nat → Cells → Result (Bytes × Cells)
  | 0, s => .ok ([], s)
  | fuel + 1, s =>
    if Cells.peek s != '%' then .ok ([], s)
    else
      let digits := s.drop 1
      match badHexDigit? 2 digits with
      | some bad =>
        fail ("while scanning a ".toList ++ thing) begin
          ("expected URI escape sequence of 2 hexadecimal numbers, but found ".toList ++
            shown bad) (Cells.mark digits)
      | none => do
        let n := (Text.hexNumber? (Cells.textOf 2 digits)).getD 0
        let (more, s) ← uriOctets thing begin fuel (digits.drop 2)
        .ok (UInt8.ofNat n :: more, s)

/-- The characters of a tag that stand for themselves. -/
def isUriChar (c : Char) : Bool := c.isAlphanum || "-;/?:@&=+$,_.!~*'()[]".toList.contains c

/-- The pieces of a tag. The number bounds the pieces. -/
def uriPieces (thing : Text) (begin : Mark) : Nat → Cells → Result (Text × Cells)
  | 0, s => .ok ([], s)
  | fuel + 1, s =>
    let plain := Cells.textWhile isUriChar s
    let s := Cells.skipWhile isUriChar s
    if Cells.peek s == '%' then do
      let (octets, after) ← uriOctets thing begin s.length s
      match Utf8.decode octets with
      | .ok text =>
        let (more, after) ← uriPieces thing begin fuel after
        .ok (plain ++ text ++ more, after)
      | .error e => fail ("while scanning a ".toList ++ thing) begin e.message (Cells.mark s)
    else .ok (plain, s)

/-- A tag without its handle. -/
def tagUri (thing : Text) (begin : Mark) (s : Cells) : Result (Text × Cells) :=
  let c := Cells.peek s
  if isUriChar c || c == '%' then uriPieces thing begin s.length s
  else
    fail ("while parsing a ".toList ++ thing) begin
      ("expected URI, but found ".toList ++ shown c) (Cells.mark s)

/-- A directive from its percent sign on. -/
def directive (s : Cells) : Result (Token × Cells) := do
  let begin := Cells.mark s
  let s := s.drop 1
  let name := Cells.textWhile isNameChar s
  let rest := Cells.skipWhile isNameChar s
  if name.isEmpty then badDirective begin "alphabetic or numeric character".toList s
  else if !isSpaceOrEnd (Cells.peek rest) then
    badDirective begin "alphabetic or numeric character".toList rest
  else
    let (kind, rest) ←
      if name == "YAML".toList then do
        let (major, s) ← versionNumber begin (Cells.skipSpaces rest)
        if Cells.peek s != '.' then badDirective begin "a digit or '.'".toList s
        else
          let (minor, s) ← versionNumber begin (s.drop 1)
          if isSpaceOrEnd (Cells.peek s) then pure (TokenKind.yamlDirective major minor, s)
          else badDirective begin "a digit or ' '".toList s
      else if name == "TAG".toList then do
        let (handle, s) ← tagHandle "directive".toList begin (Cells.skipSpaces rest)
        if Cells.peek s != ' ' then badDirective begin "' '".toList s
        else
          let (lead, s) ← tagUri "directive".toList begin (Cells.skipSpaces s)
          if isSpaceOrEnd (Cells.peek s) then pure (TokenKind.tagDirective handle lead, s)
          else badDirective begin "' '".toList s
      else pure (TokenKind.otherDirective, Cells.skipWhile (fun c => !isLineEnd c) rest)
    let stop := Cells.mark rest
    let rest ← skipRestOfLine "while scanning a directive".toList begin rest
    .ok (⟨kind, begin, stop⟩, rest)

/-- The name of an alias or an anchor after its indicator. -/
def referenceName (thing : Text) (s : Cells) : Result (Text × Cells) :=
  let begin := Cells.mark s
  let bad (s : Cells) : Result (Text × Cells) :=
    fail ("while scanning an ".toList ++ thing) begin
      ("expected alphabetic or numeric character, but found ".toList ++ shown (Cells.peek s))
      (Cells.mark s)
  let name := Cells.textWhile isNameChar (s.drop 1)
  let rest := Cells.skipWhile isNameChar (s.drop 1)
  let c := Cells.peek rest
  if name.isEmpty then bad (s.drop 1)
  else if isBlankOrEnd c || "?:,]\x7d%@\x60".toList.contains c then .ok (name, rest)
  else bad rest

/-- Whether an exclamation mark follows before a space or the end of the line. -/
def hasSecondMark (s : Cells) : Bool :=
  Cells.peek (Cells.skipWhile (fun c => !(c == '!' || isSpaceOrEnd c)) s) == '!'

/-- A tag from its exclamation mark on. -/
def tag (s : Cells) : Result (Token × Cells) := do
  let begin := Cells.mark s
  let c := Cells.peekAt s 1
  let (handle, suffix, rest) ←
    if c == '<' then do
      let (suffix, rest) ← tagUri "tag".toList begin (s.drop 2)
      if Cells.peek rest == '>' then pure (none, suffix, rest.drop 1)
      else
        fail "while parsing a tag".toList begin
          ("expected '>', but found ".toList ++ shown (Cells.peek rest)) (Cells.mark rest)
    else if isBlankOrEnd c then pure (none, ['!'], s.drop 1)
    else do
      let (handle, rest) ←
        if hasSecondMark (s.drop 1) then tagHandle "tag".toList begin s
        else pure (['!'], s.drop 1)
      let (suffix, rest) ← tagUri "tag".toList begin rest
      pure (some handle, suffix, rest)
  if isSpaceOrEnd (Cells.peek rest) then
    .ok (⟨.tag handle suffix, begin, Cells.mark rest⟩, rest)
  else
    fail "while scanning a tag".toList begin
      ("expected ' ', but found ".toList ++ shown (Cells.peek rest)) (Cells.mark rest)

-- ==================================================== one token

/-- The cells up to the next token, and whether a line ended before it. -/
def skipToToken : Nat → Bool → Cells → Cells × Bool
  | 0, ended, s => (s, ended)
  | fuel + 1, ended, s =>
    let s := Cells.skipComment (Cells.skipSpaces s)
    if isBreak (Cells.peek s) then skipToToken fuel true (Cells.takeBreak s).2 else (s, ended)

/-- The state before the next token. A line end outside flow brackets lets a key begin. -/
def advance (l : Lexer) : Lexer :=
  let s :=
    if l.mark.index = 0 && Cells.peek l.rest == '\uFEFF' then l.rest.drop 1 else l.rest
  let (s, ended) := skipToToken l.bound false s
  { l with rest := s, allowKey := l.allowKey || (ended && l.level == 0) }

/-- Whether three characters that divide documents begin here. -/
def atDocumentMarker (l : Lexer) (c : Char) : Bool :=
  l.column == 0 && Cells.textOf 3 l.rest == [c, c, c] && isBlankOrEnd (Cells.peekAt l.rest 3)

/-- The state with no block open and no possible key, before a directive or a document marker. -/
def leaveBlocks (l : Lexer) : Result Lexer := do
  let l ← (l.unwind (-1)).dropKey
  .ok { l with allowKey := false }

/-- The state after the opening bracket of a flow collection. -/
def openFlow (l : Lexer) (kind : TokenKind) : Result Lexer := do
  let l ← l.saveKey
  .ok ({ l with level := l.level + 1, allowKey := true }.indicator kind 1)

/-- The state after the closing bracket of a flow collection. -/
def closeFlow (l : Lexer) (kind : TokenKind) : Result Lexer := do
  let l ← l.dropKey
  .ok ({ l with level := l.level - 1, allowKey := false }.indicator kind 1)

/-- The state after the indicator of a block entry. -/
def blockEntry (l : Lexer) : Result Lexer := do
  let l ←
    if l.level != 0 then pure l
    else if !l.allowKey then failAt "sequence entries are not allowed here".toList l.mark
    else pure (l.openBlock .blockSequenceStart)
  let l ← { l with allowKey := true }.dropKey
  .ok (l.indicator .blockEntry 1)

/-- The state after the indicator of a key. -/
def keyIndicator (l : Lexer) : Result Lexer := do
  let l ←
    if l.level != 0 then pure l
    else if !l.allowKey then failAt "mapping keys are not allowed here".toList l.mark
    else pure (l.openBlock .blockMappingStart)
  let l ← { l with allowKey := l.level == 0 }.dropKey
  .ok (l.indicator .key 1)

/-- The state after the indicator of a value. If a key may have begun at this depth, it did. -/
def valueIndicator (l : Lexer) : Result Lexer := do
  match l.keys.find? (·.level == l.level) with
  | some k =>
    let l := { l with keys := l.keys.filter (·.level != l.level) }
    let l := l.insertAt k.index ⟨.key, k.mark, k.mark⟩
    let (l, opened) := if l.level != 0 then (l, false) else l.indentTo k.mark.column
    let l := if opened then l.insertAt k.index ⟨.blockMappingStart, k.mark, k.mark⟩ else l
    .ok ({ l with allowKey := false }.indicator .value 1)
  | none =>
    let l ←
      if l.level != 0 then pure l
      else if !l.allowKey then failAt "mapping values are not allowed here".toList l.mark
      else pure (l.openBlock .blockMappingStart)
    let l ← { l with allowKey := l.level == 0 }.dropKey
    .ok (l.indicator .value 1)

/-- The state after a token that may be a key by itself. -/
def pushContent (l : Lexer) (read : Cells → Result (Token × Cells)) : Result Lexer := do
  let l ← l.saveKey
  let (t, rest) ← read l.rest
  .ok { l.push t with rest := rest, allowKey := false }

/-- An alias or an anchor. -/
def reference (thing : Text) (kind : Text → TokenKind) (s : Cells) : Result (Token × Cells) := do
  let (name, rest) ← referenceName thing s
  .ok (⟨kind name, Cells.mark s, Cells.mark rest⟩, rest)

/-- A scalar between quotes. -/
def quotedToken (double : Bool) (bound : Nat) (s : Cells) : Result (Token × Cells) := do
  let (text, rest) ← quotedScalar double bound s
  .ok (⟨.scalar text false, Cells.mark s, Cells.mark rest⟩, rest)

/-- The state after a block scalar. -/
def pushBlockScalar (l : Lexer) (folded : Bool) : Result Lexer := do
  let l ← { l with allowKey := true }.dropKey
  let (text, stop, rest) ← blockScalar folded l.indent l.bound l.rest
  .ok { l.push ⟨.scalar text false, l.mark, stop⟩ with rest := rest }

/-- The state after a plain scalar. -/
def pushPlainScalar (l : Lexer) : Result Lexer := do
  let l ← l.saveKey
  let scalar := plainScalar (l.level != 0) l.indent l.bound l.rest
  let token : Token := ⟨.scalar scalar.text true, l.mark, scalar.stop⟩
  .ok { l.push token with rest := scalar.rest, allowKey := scalar.allowKey }

/-- Whether a plain scalar begins here. -/
def atPlain (l : Lexer) : Bool :=
  let c := Cells.peek l.rest
  let next := Cells.peekAt l.rest 1
  !(isBlankOrEnd c || "-?:,[]\x7b\x7d#&*!|>'\"%@\x60".toList.contains c) ||
    (!isBlankOrEnd next && (c == '-' || (l.level == 0 && (c == '?' || c == ':'))))

/-- The complaint about a character that begins no token. -/
def noToken {α : Type} (place : Mark) (c : Char) : Result α :=
  .error (.complaint
    ⟨⟨some "while scanning for the next token".toList, none⟩,
      ⟨some ("found character ".toList ++ shown c ++ " that cannot start any token".toList),
        some place⟩⟩)

/-- The state after the token that begins here. -/
def pushToken (l : Lexer) : Result Lexer :=
  let c := Cells.peek l.rest
  let next := Cells.peekAt l.rest 1
  let flow := l.level != 0
  if c == '%' && l.column == 0 then do
    let l ← l.leaveBlocks
    let (t, rest) ← directive l.rest
    .ok { l.push t with rest := rest }
  else if c == '-' && l.atDocumentMarker '-' then do
    .ok ((← l.leaveBlocks).indicator .documentStart 3)
  else if c == '.' && l.atDocumentMarker '.' then do
    .ok ((← l.leaveBlocks).indicator .documentEnd 3)
  else if c == '[' then l.openFlow .flowSequenceStart
  else if c == '\x7b' then l.openFlow .flowMappingStart
  else if c == ']' then l.closeFlow .flowSequenceEnd
  else if c == '\x7d' then l.closeFlow .flowMappingEnd
  else if c == ',' then do
    .ok ((← { l with allowKey := true }.dropKey).indicator .flowEntry 1)
  else if c == '-' && isBlankOrEnd next then l.blockEntry
  else if c == '?' && (flow || isBlankOrEnd next) then l.keyIndicator
  else if c == ':' && (flow || isBlankOrEnd next) then l.valueIndicator
  else if c == '*' then l.pushContent (reference "alias".toList .alias)
  else if c == '&' then l.pushContent (reference "anchor".toList .anchor)
  else if c == '!' then l.pushContent tag
  else if c == '|' && !flow then l.pushBlockScalar false
  else if c == '>' && !flow then l.pushBlockScalar true
  else if c == '\x27' then l.pushContent (quotedToken false l.bound)
  else if c == '\x22' then l.pushContent (quotedToken true l.bound)
  else if l.atPlain then l.pushPlainScalar
  else noToken l.mark c

/-- The state after the end of the text. -/
def finish (l : Lexer) : Result Lexer := do
  let l ← (l.unwind (-1)).dropKey
  .ok ({ l with allowKey := false, keys := [] }.push (l.emptyToken .streamEnd))

/-- How many characters the last step looked at from here on. The end of a plain scalar is only
known from the character after a colon, or at the beginning of a line from the first three. -/
def lookahead (l : Lexer) : Nat :=
  match l.tokens with
  | ⟨.scalar _ true, _, _⟩ :: _ =>
    if l.allowKey then 3 else if Cells.peek l.rest == ':' then 2 else 1
  | _ => 1

/-- Whether a complaint is about what follows the text that is there: its place is the end of it, or
it has found the character that ends a text. -/
def concernsEnd (l : Lexer) (n : Note) : Bool :=
  n.mark.any (fun m => decide (l.bound ≤ m.index + 1)) ||
    n.wording.any fun s => Text.endsWith s (shown nul)

/-- What a step leads to that looks at some characters from its end on. One that looks beyond the
text that is there, where the source does not end, meets what stands there. -/
def within (l : Lexer) (ahead : Lexer → Nat) (r : Result Lexer) : Result Lexer :=
  match l.beyond, r with
  | none, r => r
  | some e, .ok next => if (next.rest.drop (ahead next)).isEmpty then .error e else .ok next
  | some e, .error (.complaint c) =>
    if l.concernsEnd c.problem then .error e else .error (.complaint c)
  | some _, .error f => .error f

/-- The state after one more token, and whether it is the last. -/
def step (l : Lexer) : Result (Lexer × Bool) := do
  let l ← l.within (fun _ => 1) (.ok l.advance)
  let l ← l.dropStale
  let l := l.unwind l.column
  if Cells.peek l.rest == nul then .ok (← l.finish, true)
  else .ok (← l.within lookahead l.pushToken, false)

/-- The first tokens, so many of them. -/
def firstTokens (l : Lexer) (n : Nat) : List Token := (l.tokens.drop (l.count - n)).reverse

/-- The tokens from a state on, with the failure after them if there is one. A reader asks for a
token only when it has taken all released ones, so a failure stands after those that were released
when the last token was asked for, `taken` of them. The first number bounds the tokens. -/
def run : Nat → Nat → Lexer → List Token × Option Failure
  | 0, _, l => (l.tokens.reverse, none)
  | fuel + 1, taken, l =>
    match l.dropStale with
    | .error e => (l.firstTokens taken, some e)
    | .ok l =>
      match l.step with
      | .error e => (l.firstTokens l.released, some e)
      | .ok (next, true) => (next.tokens.reverse, none)
      | .ok (next, false) => run fuel l.released next

end Lexer

/-- The tokens of an input, with the failure after them if there is one. -/
def tokens (input : Input) : List Token × Option Failure :=
  let cells := cellsFrom ⟨0, 0, 0⟩ input.text
  Lexer.run (cells.length + 1) 0 (Lexer.start cells input.beyond)

end AuditTrail.Yaml
