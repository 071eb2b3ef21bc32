/-
The text of a YAML document with a place beside every character, so that whatever is read from it
can say where it began. The text ends with a cell that holds the null character, which no text
contains, so there is always a next character to look at.
-/
import AuditTrail.Text.Quoted

namespace AuditTrail.Yaml

/-- A place in a text, all counted from zero. -/
structure Mark where
  index : Nat
  line : Nat
  column : Nat
  deriving DecidableEq, Repr, Inhabited

/-- A character and its place. -/
structure Cell where
  char : Char
  mark : Mark
  deriving DecidableEq, Repr, Inhabited

/-- What is left of a text. -/
abbrev Cells := List Cell

/-- The character that ends a text. -/
def nul : Char := '\x00'

/-- The characters that end a line. -/
def isBreak (c : Char) : Bool :=
  c == '\r' || c == '\n' || c.toNat == 0x85 || c.toNat == 0x2028 || c.toNat == 0x2029

/-- The end of a line or of the text. -/
def isLineEnd (c : Char) : Bool := c == nul || isBreak c

/-- A space, or the end of a line or of the text. -/
def isSpaceOrEnd (c : Char) : Bool := c == ' ' || isLineEnd c

/-- A space or tab, or the end of a line or of the text. -/
def isBlankOrEnd (c : Char) : Bool := c == '\t' || isSpaceOrEnd c

/-- The place after a character that the character `next` follows. -/
def Mark.after (m : Mark) (c next : Char) : Mark :=
  if (isBreak c && c != '\r') || (c == '\r' && next != '\n') then ⟨m.index + 1, m.line + 1, 0⟩
  else if c == '\uFEFF' then ⟨m.index + 1, m.line, m.column⟩
  else ⟨m.index + 1, m.line, m.column + 1⟩

/-- The cells of a text that begins at some place, with the final one. -/
def cellsFrom (m : Mark) : Text → Cells
  | [] => [⟨nul, m⟩]
  | c :: rest => ⟨c, m⟩ :: cellsFrom (m.after c (rest.headD nul)) rest

namespace Cells

/-- The next character. -/
def peek (s : Cells) : Char :=
  match s with
  | [] => nul
  | cell :: _ => cell.char

/-- The character `k` places after the next. -/
def peekAt (s : Cells) (k : Nat) : Char := peek (s.drop k)

/-- The place of the next character. -/
def mark (s : Cells) : Mark :=
  match s with
  | [] => default
  | cell :: _ => cell.mark

/-- The column of the next character. -/
def column (s : Cells) : Nat := (mark s).column

/-- The characters as long as they satisfy a test. -/
def textWhile (p : Char → Bool) (s : Cells) : Text := (s.takeWhile (p ·.char)).map (·.char)

/-- The cells from the first character on that fails a test. -/
def skipWhile (p : Char → Bool) (s : Cells) : Cells := s.dropWhile (p ·.char)

/-- The next `n` characters. -/
def textOf (n : Nat) (s : Cells) : Text := (s.take n).map (·.char)

/-- The cells after the spaces at the beginning. -/
def skipSpaces (s : Cells) : Cells := skipWhile (· == ' ') s

/-- The cells after a comment, if one begins here. -/
def skipComment (s : Cells) : Cells :=
  if peek s == '#' then skipWhile (fun c => !isLineEnd c) s else s

/-- The line break at the beginning, as it is kept in a scalar, and the cells after it. Without a
line break the text is empty. -/
def takeBreak (s : Cells) : Text × Cells :=
  match s with
  | [] => ([], [])
  | cell :: rest =>
    if cell.char == '\r' && peek rest == '\n' then (['\n'], rest.drop 1)
    else if cell.char == '\r' || cell.char == '\n' || cell.char.toNat == 0x85 then (['\n'], rest)
    else if isBreak cell.char then ([cell.char], rest)
    else ([], cell :: rest)

/-- Whether a line that divides documents begins here: three hyphens or points and nothing after
them. -/
def atDivider (s : Cells) : Bool :=
  let start := textOf 3 s
  (start == ['-', '-', '-'] || start == ['.', '.', '.']) && isBlankOrEnd (peekAt s 3)

end Cells

-- ==================================================== what a text may contain

/-- Whether a character may stand in a document. -/
def isAcceptable (c : Char) : Bool :=
  let n := c.toNat
  n == 0x09 || n == 0x0A || n == 0x0D || n == 0x85 || decide (0x20 ≤ n ∧ n ≤ 0x7E) ||
    decide (0xA0 ≤ n ∧ n ≤ 0xD7FF) || decide (0xE000 ≤ n ∧ n ≤ 0xFFFD) || decide (0x10000 ≤ n)

/-- The first character that may not stand in a document, and its index. -/
def unacceptable? (s : Text) : Option (Char × Nat) :=
  (s.zipIdx.find? fun p => !isAcceptable p.1)

-- ==================================================== where a mark points

/-- Whether a line of source ends before this character. -/
def endsSnippet (c : Char) : Bool := isLineEnd c

/-- The beginning of the line around a mark: the characters before it, nearest first, cut with a
sign for what is left out if there are too many. -/
def snippetBefore (line : Text) : Text × Text :=
  let near := line.takeWhile fun c => !endsSnippet c
  if near.length < 37 then ([], near.reverse) else (" ... ".toList, (near.take 32).reverse)

/-- The end of the line from a mark on, cut likewise. -/
def snippetAfter (line : Text) : Text :=
  let near := line.takeWhile fun c => !endsSnippet c
  if near.length < 37 then near else near.take 32 ++ " ... ".toList

/-- The line of a text that holds a mark, and a caret under the mark. -/
def Mark.snippet (m : Mark) (source : Text) : Text :=
  let (head, before) := snippetBefore (source.take m.index).reverse
  List.replicate 4 ' ' ++ head ++ before ++ snippetAfter (source.drop m.index) ++
    '\n' :: List.replicate (4 + before.length + head.length) ' ' ++ ['^']

/-- How messages speak of a source: by its name, and by the line at a mark where the text is at
hand. -/
structure Caption where
  name : Text
  text : Option Text

/-- The caption of a text that is there as a whole. -/
def Caption.ofText (s : Text) : Caption := ⟨"<unicode string>".toList, some s⟩

/-- Where a mark points, as a message says it. -/
def Mark.describe (m : Mark) (source : Caption) : Text :=
  let line :=
    match source.text with
    | some s => ":\n".toList ++ m.snippet s
    | none => []
  "  in \"".toList ++ source.name ++ "\", line ".toList ++ Text.ofNat (m.line + 1) ++
    ", column ".toList ++ Text.ofNat (m.column + 1) ++ line

end AuditTrail.Yaml
