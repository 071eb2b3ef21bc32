/-
Scalars as they are written: plain text, text between quotes with escapes, and blocks of lines.
Each reader returns the text that the scalar stands for and what is left of the source.
-/
import AuditTrail.Text.Hex
import AuditTrail.Yaml.Error

namespace AuditTrail.Yaml

-- ==================================================== quoted scalars

/-- What a letter after a backslash stands for. -/
def escapeFor? : Char → Option Char
  | '0' => some '\x00'
  | 'a' => some '\x07'
  | 'b' => some '\x08'
  | 't' => some '\t'
  | '\t' => some '\t'
  | 'n' => some '\n'
  | 'v' => some '\x0B'
  | 'f' => some '\x0C'
  | 'r' => some '\r'
  | 'e' => some '\x1B'
  | ' ' => some ' '
  | '\x22' => some '\x22'
  | '\\' => some '\\'
  | '/' => some '/'
  | 'N' => some '\u0085'
  | '_' => some '\u00A0'
  | 'L' => some '\u2028'
  | 'P' => some '\u2029'
  | _ => none

/-- The number of digits of an escape by number. -/
def escapeWidth? : Char → Option Nat
  | 'x' => some 2
  | 'u' => some 4
  | 'U' => some 8
  | _ => none

/-- The character of an escape by number. Half a pair is no character, so that the replacement stands
for it. -/
def escapedCharacter (n : Nat) : Result Char :=
  if 0x80000000 ≤ n then .error (.fault .negativeCharacter)
  else if 0x110000 ≤ n then .error (.fault .hugeCharacter)
  else if 0xD800 ≤ n ∧ n < 0xE000 then .ok Utf8.replacement
  else .ok (Char.ofNat n)

/-- The line breaks that continue a quoted scalar on later lines. The number bounds the lines. -/
def quotedBreaks (start : Mark) : Nat → Cells → Result (Text × Cells)
  | 0, s => .ok ([], s)
  | fuel + 1, s =>
    if Cells.atDivider s then
      fail "while scanning a quoted scalar".toList start
        "found unexpected document separator".toList (Cells.mark s)
    else
      let s := Cells.skipWhile (fun c => c == ' ' || c == '\t') s
      if isBreak (Cells.peek s) then do
        let (b, s) := Cells.takeBreak s
        let (more, s) ← quotedBreaks start fuel s
        .ok (b ++ more, s)
      else .ok ([], s)

/-- The first character, by its distance, that is no hexadecimal digit among the next `n`. -/
def badHexDigit? (n : Nat) (s : Cells) : Option Char :=
  ((List.range n).map (Cells.peekAt s)).find? fun c => (Text.hexValue? c).isNone

/-- The characters of a quoted scalar up to its quote or to white space. The number bounds the
steps here and in what is read on the way. -/
def quotedSolid (double : Bool) (start : Mark) : Nat → Cells → Result (Text × Cells)
  | 0, s => .ok ([], s)
  | fuel + 1, s =>
    let isSolid c := !(c == '\x27' || c == '\x22' || c == '\\' || isBlankOrEnd c)
    let solid := Cells.textWhile isSolid s
    let s := Cells.skipWhile isSolid s
    let c := Cells.peek s
    let next := Cells.peekAt s 1
    let go (piece : Text) (s : Cells) : Result (Text × Cells) := do
      let (more, s) ← quotedSolid double start fuel s
      .ok (solid ++ piece ++ more, s)
    if !double && c == '\x27' && next == '\x27' then go ['\x27'] (s.drop 2)
    else if (double && c == '\x27') || (!double && (c == '\x22' || c == '\\')) then
      go [c] (s.drop 1)
    else if double && c == '\\' then
      let rest := s.drop 1
      match escapeFor? next, escapeWidth? next with
      | some x, _ => go [x] (rest.drop 1)
      | none, some width =>
        let digits := rest.drop 1
        match badHexDigit? width digits with
        | some bad =>
          fail "while scanning a double-quoted scalar".toList start
            ("expected escape sequence of ".toList ++ Text.ofNat width ++
              " hexadecimal numbers, but found ".toList ++ shown bad) (Cells.mark digits)
        | none => do
          let x ← escapedCharacter ((Text.hexNumber? (Cells.textOf width digits)).getD 0)
          go [x] (digits.drop width)
      | none, none =>
        if isBreak next then do
          let (_, rest) := Cells.takeBreak rest
          let (breaks, rest) ← quotedBreaks start fuel rest
          go breaks rest
        else
          fail "while scanning a double-quoted scalar".toList start
            ("found unknown escape character ".toList ++ shown next) (Cells.mark rest)
    else .ok (solid, s)

/-- The white space inside a quoted scalar: kept within a line, folded at line breaks. The number
bounds the lines. -/
def quotedSpace (start : Mark) (bound : Nat) (s : Cells) : Result (Text × Cells) :=
  let isSpace c := c == ' ' || c == '\t'
  let spaces := Cells.textWhile isSpace s
  let s := Cells.skipWhile isSpace s
  let c := Cells.peek s
  if c == nul then
    fail "while scanning a quoted scalar".toList start
      "found unexpected end of stream".toList (Cells.mark s)
  else if isBreak c then do
    let (b, s) := Cells.takeBreak s
    let (breaks, s) ← quotedBreaks start bound s
    let first := if b != ['\n'] then b else if breaks.isEmpty then [' '] else []
    .ok (first ++ breaks, s)
  else .ok (spaces, s)

/-- The rest of a quoted scalar. The number bounds the steps. -/
def quotedRest (double : Bool) (start : Mark) : Nat → Cells → Result (Text × Cells)
  | 0, s => .ok ([], s)
  | fuel + 1, s => do
    let (solid, s) ← quotedSolid double start (fuel + 1) s
    if Cells.peek s == (if double then '\x22' else '\x27') then .ok (solid, s.drop 1)
    else
      let (space, s) ← quotedSpace start fuel s
      let (more, s) ← quotedRest double start fuel s
      .ok (solid ++ space ++ more, s)

/-- A quoted scalar from its opening quote on. The number is at least that of the cells. -/
def quotedScalar (double : Bool) (bound : Nat) (s : Cells) : Result (Text × Cells) :=
  quotedRest double (Cells.mark s) bound (s.drop 1)

-- ==================================================== block scalars

/-- What happens to the line breaks at the end of a block scalar. -/
inductive Chomping where
  | strip
  | clip
  | keep
  deriving DecidableEq, Repr

/-- The chomping that a sign stands for. -/
def chomping? : Char → Option Chomping
  | '+' => some .keep
  | '-' => some .strip
  | _ => none

/-- The indentation indicator at the beginning, if there is one. -/
def indentIndicator (start : Mark) (s : Cells) : Result (Option Nat × Cells) :=
  let c := Cells.peek s
  if '0' ≤ c ∧ c ≤ '9' then
    if c = '0' then
      fail "while scanning a block scalar".toList start
        "expected indentation indicator in the range 1-9, but found 0".toList (Cells.mark s)
    else .ok (some (c.toNat - 0x30), s.drop 1)
  else .ok (none, s)

/-- The chomping and the indentation that the head of a block scalar asks for, in either order. -/
def blockHead (start : Mark) (s : Cells) : Result (Chomping × Option Nat × Cells) := do
  let (chomping, indent, s) ←
    match chomping? (Cells.peek s) with
    | some c => do
      let (indent, s) ← indentIndicator start (s.drop 1)
      pure (c, indent, s)
    | none => do
      let (indent, s) ← indentIndicator start s
      match indent, chomping? (Cells.peek s) with
      | some n, some c => pure (c, some n, s.drop 1)
      | indent, _ => pure (Chomping.clip, indent, s)
  if isSpaceOrEnd (Cells.peek s) then .ok (chomping, indent, s)
  else
    fail "while scanning a block scalar".toList start
      ("expected chomping or indentation indicators, but found ".toList ++ shown (Cells.peek s))
      (Cells.mark s)

/-- The cells after the rest of a line that may hold a comment only. -/
def skipRestOfLine (context : Text) (start : Mark) (s : Cells) : Result Cells :=
  let s := Cells.skipComment (Cells.skipSpaces s)
  if isLineEnd (Cells.peek s) then .ok (Cells.takeBreak s).2
  else
    fail context start
      ("expected a comment or a line break, but found ".toList ++ shown (Cells.peek s))
      (Cells.mark s)

/-- The blank lines before the first line of a block scalar, the deepest column that their spaces
reach, and the place after the last of them. -/
def leadingBlankLines : Nat → Nat → Mark → Cells → Text × Nat × Mark × Cells
  | 0, deepest, stop, s => ([], deepest, stop, s)
  | fuel + 1, deepest, stop, s =>
    let c := Cells.peek s
    if c == ' ' then
      let s := s.drop 1
      leadingBlankLines fuel (max deepest (Cells.column s)) stop s
    else if isBreak c then
      let (b, s) := Cells.takeBreak s
      let (more, deepest, stop, s) := leadingBlankLines fuel deepest (Cells.mark s) s
      (b ++ more, deepest, stop, s)
    else ([], deepest, stop, s)

/-- The cells after the spaces that indent a line, at most up to a column. -/
def skipIndent (indent : Nat) (s : Cells) : Cells :=
  let spaces := (Cells.textWhile (· == ' ') s).length
  s.drop (min spaces (indent - Cells.column s))

/-- The blank lines within a block scalar, and the place after the last of them. -/
def blockBreaks (indent : Nat) : Nat → Mark → Cells → Text × Mark × Cells
  | 0, stop, s => ([], stop, s)
  | fuel + 1, stop, s =>
    let s := skipIndent indent s
    if isBreak (Cells.peek s) then
      let (b, s) := Cells.takeBreak s
      let (more, stop, s) := blockBreaks indent fuel (Cells.mark s) s
      (b ++ more, stop, s)
    else ([], stop, s)

/-- The lines of a block scalar from one at the right indentation on; `breaks` are the blank lines
before it. The last line break and the blank lines at the end are returned apart. -/
def blockLines (folded : Bool) (indent : Nat) :
    Nat → Text → Mark → Cells → Text × Text × Text × Mark × Cells
  | 0, breaks, stop, s => ([], [], breaks, stop, s)
  | fuel + 1, breaks, stop, s =>
    if Cells.column s != indent || Cells.peek s == nul then ([], [], breaks, stop, s)
    else
      let isSolid (c : Char) : Bool := !(c == ' ' || c == '\t')
      let solidStart := isSolid (Cells.peek s)
      let line := Cells.textWhile (fun c => !isLineEnd c) s
      let (lineBreak, s) := Cells.takeBreak (Cells.skipWhile (fun c => !isLineEnd c) s)
      let (nextBreaks, stop, s) := blockBreaks indent fuel (Cells.mark s) s
      if Cells.column s == indent && Cells.peek s != nul then
        let joint :=
          if folded && lineBreak == ['\n'] && solidStart && isSolid (Cells.peek s) then
            if nextBreaks.isEmpty then [' '] else []
          else lineBreak
        let (more, final, last, stop, s) := blockLines folded indent fuel nextBreaks stop s
        (breaks ++ line ++ joint ++ more, final, last, stop, s)
      else (breaks ++ line, lineBreak, nextBreaks, stop, s)

/-- A block scalar from its indicator on, inside a block at column `parent`, with the place where
it ends. The number is at least that of the cells. -/
def blockScalar (folded : Bool) (parent : Int) (bound : Nat) (s : Cells) :
    Result (Text × Mark × Cells) := do
  let start := Cells.mark s
  let (chomping, indicator, s) ← blockHead start (s.drop 1)
  let s ← skipRestOfLine "while scanning a block scalar".toList start s
  let least := (max (parent + 1) 1).toNat
  let (breaks, indent, stop, s) :=
    match indicator with
    | none =>
      let (breaks, deepest, stop, s) := leadingBlankLines bound 0 (Cells.mark s) s
      (breaks, max least deepest, stop, s)
    | some n =>
      let indent := least + n - 1
      let (breaks, stop, s) := blockBreaks indent bound (Cells.mark s) s
      (breaks, indent, stop, s)
  let (body, final, last, stop, s) := blockLines folded indent bound breaks stop s
  let tail :=
    match chomping with
    | .strip => []
    | .clip => final
    | .keep => final ++ last
  .ok (body ++ tail, stop, s)

-- ==================================================== plain scalars

/-- Whether a character has a meaning of its own inside flow brackets. -/
def isFlowIndicator (c : Char) : Bool :=
  c == ',' || c == '[' || c == ']' || c == '\x7b' || c == '\x7d'

/-- The characters of a plain scalar up to white space or to an indicator that ends it. -/
def plainRun (flow : Bool) : Cells → Text × Cells
  | [] => ([], [])
  | cell :: rest =>
    let c := cell.char
    let next := Cells.peek rest
    if isBlankOrEnd c || (c == ':' && (isBlankOrEnd next || (flow && isFlowIndicator next))) ||
        (flow && (isFlowIndicator c || c == '?')) then
      ([], cell :: rest)
    else
      let (more, s) := plainRun flow rest
      (c :: more, s)

/-- The line breaks after the first one inside a plain scalar; nothing if a document divider
follows one of them. -/
def plainBreaks : Nat → Cells → Option Text × Cells
  | 0, s => (some [], s)
  | fuel + 1, s =>
    if Cells.peek s == ' ' then plainBreaks fuel (s.drop 1)
    else if isBreak (Cells.peek s) then
      let (b, s) := Cells.takeBreak s
      if Cells.atDivider s then (none, s)
      else
        let (more, s) := plainBreaks fuel s
        (more.map (b ++ ·), s)
    else (some [], s)

/-- The white space inside a plain scalar: the text it stands for, whether a line ended, and the
cells after it. No text is returned where nothing can follow. The number bounds the steps. -/
def plainSpace (bound : Nat) (s : Cells) : Option Text × Bool × Cells :=
  let spaces := Cells.textWhile (· == ' ') s
  let s := Cells.skipSpaces s
  if isBreak (Cells.peek s) then
    let (b, s) := Cells.takeBreak s
    if Cells.atDivider s then (none, true, s)
    else
      let (breaks, s) := plainBreaks bound s
      let text := breaks.map fun breaks =>
        (if b != ['\n'] then b else if breaks.isEmpty then [' '] else []) ++ breaks
      (text, true, s)
  else (if spaces.isEmpty then none else some spaces, false, s)

/-- What the reader of a plain scalar returns. -/
structure PlainScalar where
  text : Text
  stop : Mark
  /-- Whether a simple key may begin after it. -/
  allowKey : Bool
  rest : Cells

/-- The scalar with some text before it. -/
def PlainScalar.after (head : Text) (p : PlainScalar) : PlainScalar :=
  { p with text := head ++ p.text }

/-- The rest of a plain scalar. `space` is the white space before it, `indent` the least column of
its lines, and `ended` is the scalar that there is if nothing follows. The number bounds the
runs. -/
def plainRest (flow : Bool) (indent : Int) :
    Nat → Text → PlainScalar → PlainScalar
  | 0, _, ended => ended
  | fuel + 1, space, ended =>
    if Cells.peek ended.rest == '#' then ended
    else
      let (run, s) := plainRun flow ended.rest
      if run.isEmpty then ended
      else
        let (following, broken, rest) := plainSpace fuel s
        let ended : PlainScalar := ⟨[], Cells.mark s, broken, rest⟩
        let more :=
          match following with
          | none => ended
          | some text =>
            if Cells.peek rest == '#' ||
                (!flow && decide ((Cells.column rest : Int) < indent)) then
              ended
            else plainRest flow indent fuel text ended
        more.after (space ++ run)

/-- A plain scalar inside a block at column `parent`. The number is at least that of the cells. -/
def plainScalar (flow : Bool) (parent : Int) (bound : Nat) (s : Cells) : PlainScalar :=
  plainRest flow (parent + 1) bound [] ⟨[], Cells.mark s, false, s⟩

end AuditTrail.Yaml
