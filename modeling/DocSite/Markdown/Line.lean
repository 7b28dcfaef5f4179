/-! Lines of Markdown text and the blanks they begin with. Blanks are counted in
columns: a tab reaches to the next multiple of four. -/
namespace DocSite.Markdown

/-- A blank inside a line: space, tab, line tabulation or form feed. -/
def isSpace (c : Char) : Bool := c == ' ' || c == '\t' || c == '\x0b' || c == '\x0c'

def isSpaceOrEnd (c : Char) : Bool := isSpace c || c == '\n' || c == '\r'

def isSpaceOrTab (c : Char) : Bool := c == ' ' || c == '\t'

/-- A line and what ends it. Only the last line of a text may have no ending. -/
structure Line where
  chars : List Char
  ending : List Char

namespace Line

/-- Lines of a text, where `line` holds the current line, latest character first. -/
def splitFrom (line : List Char) : List Char → List Line
  | [] => if line.isEmpty then [] else [⟨line.reverse, []⟩]
  | '\r' :: '\n' :: rest => ⟨line.reverse, ['\n']⟩ :: splitFrom [] rest
  | '\n' :: rest => ⟨line.reverse, ['\n']⟩ :: splitFrom [] rest
  | '\r' :: rest => ⟨line.reverse, ['\r']⟩ :: splitFrom [] rest
  | c :: rest => splitFrom (c :: line) rest

/-- The lines of a text. A line ends at a line feed, a carriage return or both. -/
def split (text : List Char) : List Line := splitFrom [] text

def newline (line : Line) : List Char := if line.ending.isEmpty then [] else ['\n']

def isBlank (chars : List Char) : Bool := chars.all isSpace

end Line

/-- A place in a line. `pending` columns of the tab before `rest` are still to be read. -/
structure Cursor where
  rest : List Char
  column : Nat
  pending : Nat

namespace Cursor

def start (chars : List Char) : Cursor := ⟨chars, 0, 0⟩

def skipFrom (wanted column : Nat) : List Char → Nat × Cursor
  | ' ' :: rest =>
    match wanted with
    | 0 => (0, ⟨' ' :: rest, column, 0⟩)
    | more + 1 => skipFrom more (column + 1) rest
  | '\t' :: rest =>
    let width := 4 - column % 4
    if wanted = 0 then (0, ⟨'\t' :: rest, column, 0⟩)
    else if width ≤ wanted then skipFrom (wanted - width) (column + width) rest
    else (0, ⟨rest, column + width, width - wanted⟩)
  | rest => (wanted, ⟨rest, column, 0⟩)

/-- Skips up to `wanted` columns of blanks and says how many were missing. -/
def skip (c : Cursor) (wanted : Nat) : Nat × Cursor :=
  if wanted ≤ c.pending then (0, { c with pending := c.pending - wanted })
  else skipFrom (wanted - c.pending) c.column c.rest

def indent (c : Cursor) (limit : Nat) : Nat × Cursor :=
  let (missing, after) := c.skip limit
  (limit - missing, after)

def trimmed (c : Cursor) : List Char := c.rest.dropWhile isSpaceOrTab

def text (c : Cursor) : List Char := List.replicate c.pending ' ' ++ c.rest

def quoteMark? (c : Cursor) : Option Cursor :=
  match c.rest with
  | '>' :: rest => some (({ rest := rest, column := c.column + 1, pending := 0 } : Cursor).skip 1).2
  | _ => none

end Cursor
end DocSite.Markdown
