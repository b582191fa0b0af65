/-!
# Blanks, trimming and lines

The blank characters are those with the Unicode property `White_Space`.
Trimming removes them from both ends; a line ends at a line feed, and a
carriage return directly before it belongs to the line end.
-/

namespace Relocate.Text

/-- A character with the property `White_Space`. -/
def isBlank (c : Char) : Bool :=
  let code := c.toNat
  (9 ≤ code && code ≤ 13) || code == 0x20 || code == 0x85 || code == 0xA0 ||
    code == 0x1680 || (0x2000 ≤ code && code ≤ 0x200A) || code == 0x2028 ||
    code == 0x2029 || code == 0x202F || code == 0x205F || code == 0x3000

/-- `isBlank` extends the blanks of ASCII that the core library knows. -/
theorem isBlank_of_isWhitespace {c : Char} (h : c.isWhitespace = true) : isBlank c = true := by
  simp only [Char.isWhitespace, Bool.or_eq_true, decide_eq_true_eq] at h
  rcases h with ((rfl | rfl) | rfl) | rfl <;> decide

/-- The text without the blanks at its start. -/
def trimStart (text : List Char) : List Char :=
  text.dropWhile isBlank

/-- The text without the blanks at its end. -/
def trimEnd (text : List Char) : List Char :=
  (text.reverse.dropWhile isBlank).reverse

/-- The text without the blanks at either end. -/
def trim (text : List Char) : List Char :=
  trimEnd (trimStart text)

/-- The pieces of a text between its line feeds, in order; never empty. -/
def splitLines : List Char → List (List Char)
  | [] => [[]]
  | c :: rest =>
    if c = '\n' then [] :: splitLines rest
    else
      match splitLines rest with
      | [] => [[c]]
      | line :: lines => (c :: line) :: lines

/-- A line without the carriage return that ends it. -/
def dropCarriageReturn (line : List Char) : List Char :=
  match line.reverse with
  | '\r' :: front => front.reverse
  | _ => line

/-- The lines of a text.  A line feed ends a line, so a text that ends in one
has no further, empty line after it; the last line keeps a carriage return that
no line feed follows. -/
def lines (text : List Char) : List (List Char) :=
  let pieces := splitLines text
  let ended := pieces.dropLast.map dropCarriageReturn
  match pieces.getLast? with
  | none | some [] => ended
  | some last => ended ++ [last]

/-- Texts joined by a separator. -/
def join (separator : String) : List String → String
  | [] => ""
  | [text] => text
  | text :: rest => text ++ separator ++ join separator rest

/-- Texts joined by a comma and a space. -/
def commaList (texts : List String) : String :=
  join ", " texts

end Relocate.Text
