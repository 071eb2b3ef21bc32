/-
Lines of a text. A line ends at any of the line and record separators of Unicode, a carriage
return and a line feed count as one end, and an end at the very end of the text starts no further
line.
-/
import AuditTrail.Text.Basic

namespace AuditTrail.Text

/-- The characters that end a line. -/
def isLineEnd (c : Char) : Bool :=
  let n := c.toNat
  decide (0x0A ≤ n ∧ n ≤ 0x0D) || decide (0x1C ≤ n ∧ n ≤ 0x1E) || n == 0x85 || n == 0x2028 ||
    n == 0x2029

/-- The lines of `s`; the first argument holds the beginning of the current line, reversed, and
`fresh` says that no character of it was read yet. -/
def linesFrom : Text → Bool → Text → List Text
  | line, fresh, [] => if fresh then [] else [line.reverse]
  | line, _, '\r' :: '\n' :: rest => line.reverse :: linesFrom [] true rest
  | line, _, c :: rest =>
    if isLineEnd c then line.reverse :: linesFrom [] true rest
    else linesFrom (c :: line) false rest

/-- The lines of a text, without their ends. -/
def lines (s : Text) : List Text := linesFrom [] true s

/-- The lines of `s` with their ends; the first argument holds the beginning of the current line,
reversed. -/
def fullLinesFrom : Text → Text → List Text
  | line, [] => if line.isEmpty then [] else [line.reverse]
  | line, '\r' :: '\n' :: rest => ('\n' :: '\r' :: line).reverse :: fullLinesFrom [] rest
  | line, c :: rest =>
    if isLineEnd c then (c :: line).reverse :: fullLinesFrom [] rest
    else fullLinesFrom (c :: line) rest

/-- The lines of a text, with their ends. -/
def fullLines (s : Text) : List Text := fullLinesFrom [] s

/-- The text with something in front of each of its lines. -/
def indent (margin : Text) (s : Text) : Text := (fullLines s).flatMap (margin ++ ·)

/-- The text with every line end that is a carriage return, alone or before a line feed, made a
line feed. -/
def unifyLineEnds : Text → Text
  | [] => []
  | '\r' :: '\n' :: rest => '\n' :: unifyLineEnds rest
  | c :: rest => (if c = '\r' then '\n' else c) :: unifyLineEnds rest

end AuditTrail.Text
