import DocSite.Markdown.Line
/-! What a line of Markdown can begin with, once its blanks have been read. -/
namespace DocSite.Markdown

/-- Whether a line is a thematic break: three or more of one mark and blanks. -/
def isThematicBreak (s : List Char) : Bool :=
  match s with
  | c :: _ =>
    (c == '*' || c == '-' || c == '_') && s.all (fun d => d == c || isSpaceOrTab d) &&
      3 ≤ s.count c
  | [] => false

/-- The heading text without the marks that close it. -/
def withoutClosingMarks (text : List Char) : List Char :=
  let inner := (text.reverse.dropWhile (· == ' ')).reverse
  let kept := (inner.reverse.dropWhile (· == '#')).reverse
  if kept.isEmpty then []
  else if kept.getLast? = some ' ' then (kept.reverse.dropWhile (· == ' ')).reverse
  else inner

def heading? (s : List Char) : Option (Nat × List Char) :=
  let marks := s.takeWhile (· == '#')
  let rest := s.drop marks.length
  if 1 ≤ marks.length ∧ marks.length ≤ 6 ∧ rest.head?.all isSpace then
    some (marks.length, withoutClosingMarks (rest.dropWhile isSpace))
  else none

/-- The heading level that a line gives to the paragraph above it. -/
def underline? (s : List Char) : Option Nat :=
  match s with
  | c :: _ =>
    if (c == '=' || c == '-') && Line.isBlank (s.dropWhile (· == c)) then
      some (if c = '=' then 1 else 2)
    else none
  | [] => none

structure Fence where
  char : Char
  length : Nat
  info : List Char

namespace Fence

def read? (s : List Char) : Option Fence :=
  match s with
  | c :: _ =>
    let marks := s.takeWhile (· == c)
    let info := s.drop marks.length
    if (c == '\x60' || c == '~') && 3 ≤ marks.length && !(c == '\x60' && info.contains '\x60') then
      some ⟨c, marks.length, (info.dropWhile isSpace).reverse.dropWhile isSpace |>.reverse⟩
    else none
  | [] => none

def closedBy (fence : Fence) (s : List Char) : Bool :=
  let marks := s.takeWhile (· == fence.char)
  fence.length ≤ marks.length && (s.drop marks.length).all (· == ' ')

end Fence

/-- The marker of a list item. `indent` columns belong to the item on the lines that follow. -/
structure ItemMarker where
  delimiter : Char
  number : Nat
  indent : Nat
  rest : Cursor

namespace ItemMarker

def isBullet (c : Char) : Bool := c == '-' || c == '+' || c == '*'

def mark? (s : List Char) : Option (Char × Nat × Nat) :=
  match s with
  | c :: _ =>
    if isBullet c then if isThematicBreak s then none else some (c, 0, 1)
    else
      let digits := s.takeWhile Char.isDigit
      match s.drop digits.length with
      | d :: _ =>
        if (d == '.' || d == ')') && 1 ≤ digits.length && digits.length ≤ 9 then
          some (d, digits.foldl (fun n digit => 10 * n + (digit.toNat - 48)) 0, digits.length + 1)
        else none
      | [] => none
  | [] => none

/-- Reads a marker that stands `outer` columns into the line. Code that begins
right after the marker is one blank away from it. -/
def read? (outer : Nat) (c : Cursor) : Option ItemMarker :=
  match mark? c.rest with
  | none => none
  | some (delimiter, number, width) =>
    let after : Cursor := ⟨c.rest.drop width, c.column + width, 0⟩
    let (missing, inner) := after.skip 1
    if missing = 0 ∨ after.rest.isEmpty then
      let indent := outer + width + 1
      if Line.isBlank inner.rest then some ⟨delimiter, number, indent, inner⟩
      else
        let (more, text) := inner.indent 4
        if more < 4 then some ⟨delimiter, number, indent + more, text⟩
        else some ⟨delimiter, number, indent, inner⟩
    else none

end ItemMarker

inductive Alignment where
  | none | left | center | right
deriving DecidableEq, Repr

namespace Alignment

/-- The column as far as it has been read in the line below a table's head. -/
structure Column where
  alignment : Alignment
  started : Bool
  hyphen : Bool

def Column.start : Column := ⟨.none, false, false⟩

def Column.colon (c : Column) : Column :=
  { c with
    started := true
    alignment :=
      match c.started, c.alignment with
      | false, .none => .left
      | true, .left => .center
      | true, .none => .right
      | _, a => a }

def columnsFrom (column : Column) (piped hyphen : Bool) : List Char → Option (List Alignment)
  | [] =>
    if piped && hyphen then some (if column.started then [column.alignment] else [])
    else Option.none
  | ' ' :: rest => columnsFrom column piped hyphen rest
  | ':' :: rest => columnsFrom column.colon piped hyphen rest
  | '-' :: rest => columnsFrom { column with started := true, hyphen := true } piped true rest
  | '|' :: rest =>
    if column.hyphen then (columnsFrom .start true hyphen rest).map (column.alignment :: ·)
    else Option.none
  | _ :: _ => Option.none

def columns? (s : List Char) : Option (List Alignment) :=
  match s with
  | [] => Option.none
  | '|' :: rest => columnsFrom .start true false rest
  | rest => columnsFrom .start false false rest

end Alignment

/-- The cells of a table row. A bar after a backslash belongs to its cell. -/
def splitCells (cell : List Char) : List Char → List (List Char)
  | [] => [cell.reverse]
  | '\\' :: '|' :: rest => splitCells ('|' :: cell) rest
  | '|' :: rest => cell.reverse :: splitCells [] rest
  | c :: rest => splitCells (c :: cell) rest

def trimCell (cell : List Char) : List Char :=
  ((cell.dropWhile isSpace).reverse.dropWhile isSpace).reverse

def cells (s : List Char) : List (List Char) :=
  let row := trimCell s
  let inner := match row with
    | '|' :: rest => rest
    | rest => rest
  let all := splitCells [] inner
  match all.getLast? with
  | some last => (if Line.isBlank last then all.dropLast else all).map trimCell
  | none => []

/-- How many bars a line has that no backslash escapes. -/
def barCount : List Char → Nat
  | '\\' :: _ :: rest => barCount rest
  | '|' :: rest => barCount rest + 1
  | _ :: rest => barCount rest
  | [] => 0

def endsWithBar (after : Bool) : List Char → Bool
  | '\\' :: _ :: rest => endsWithBar false rest
  | '|' :: rest => endsWithBar true rest
  | c :: rest => endsWithBar (after && isSpace c) rest
  | [] => after

def headColumns (s : List Char) : Nat :=
  let bars := barCount s
  let inner := if (s.dropWhile isSpace).head? = some '|' then bars - 1 else bars
  if endsWithBar false s then inner else inner + 1

end DocSite.Markdown
