import DocSite.Markdown.Frame
import DocSite.Markdown.RawHtml
/-! Where a paragraph ends and what it turns out to be: text, a heading, a
table, or definitions with nothing after them. -/
namespace DocSite.Markdown

def isEmptyItem (marker : ItemMarker) (following : List Line) : Bool :=
  Line.isBlank marker.rest.rest && following.head?.all fun line => Line.isBlank line.chars

/-- Whether the marker of a list item may end a paragraph. A line that continues
all open blocks can begin a new list only with a bullet or the number one. -/
def itemInterrupts (s : List Char) (inside : Bool) (following : List Line) : Bool :=
  match ItemMarker.read? 0 (.start s) with
  | some marker =>
    !inside ||
      (ItemMarker.isBullet marker.delimiter || marker.number == 1) && !isEmptyItem marker following
  | none => false

def noteLabel? (s : List Char) : Option (List Char × List Char) :=
  match s with
  | '[' :: '^' :: rest =>
    match Label.readNote? rest with
    | some (label, ':' :: after) => some (label, after.dropWhile isSpace)
    | _ => none
  | _ => none

def interrupts (s : List Char) (inside : Bool) (following : List Line) : Bool :=
  Line.isBlank s || isThematicBreak s || (heading? s).isSome || (Fence.read? s).isSome ||
    s.head? == some '>' || itemInterrupts s inside following || RawHtml.interrupts s ||
    (noteLabel? s).isSome

/-- The columns of the table whose head is `head`, if the next line describes them. -/
def tableColumns? (frames : List Frame) (head : List Char) (following : List Line) :
    Option (List Alignment) :=
  match following with
  | below :: _ =>
    let (entered, c) := Frame.enterAll (.start below.chars) frames
    let (indent, inner) := c.indent 4
    if entered = frames.length ∧ indent < 4 then
      (Alignment.columns? inner.rest).filter (·.length == headColumns head)
    else none
  | [] => none

/-- Whether a line ends a paragraph. A table needs a bar at its start to do so. -/
def interruptsParagraph (frames : List Frame) (s : List Char) (inside : Bool)
    (following : List Line) : Bool :=
  interrupts s inside following ||
    (s.head? == some '|' && (tableColumns? frames s following).isSome)

inductive NextLine where
  | underline (level : Nat)
  | stop
  | more (text : List Char)

def NextLine.of (frames : List Frame) (line : Line) (following : List Line) : NextLine :=
  let (entered, c) := Frame.enterAll (.start line.chars) frames
  let inside := entered == frames.length
  let (indent, inner) := c.indent 4
  let text := c.rest ++ line.newline
  if indent = 4 then if inner.trimmed.isEmpty then .stop else .more text
  else
    match if inside then underline? inner.rest else none with
    | some level => .underline level
    | none => if interruptsParagraph frames inner.rest inside following then .stop else .more text

/-- The lines that continue a paragraph, and the level if they end in an underline. -/
def paragraphLines (frames : List Frame) : List Line → List (List Char) × Option Nat
  | [] => ([], none)
  | line :: following =>
    match NextLine.of frames line following with
    | .underline level => ([], some level)
    | .stop => ([], none)
    | .more text =>
      let (lines, level?) := paragraphLines frames following
      (text :: lines, level?)

/-- The rows of a table: lines that continue all open blocks and begin no other
block. Every marker of a list item begins one here. -/
def tableRows (frames : List Frame) : List Line → List (List (List Char))
  | [] => []
  | line :: following =>
    let (entered, c) := Frame.enterAll (.start line.chars) frames
    if entered = frames.length ∧ ¬ interrupts c.trimmed false following ∧
        ¬ (cells c.trimmed).isEmpty then
      cells c.trimmed :: tableRows frames following
    else []

def fitRow (columns : Nat) (row : List (List Char)) : List (List Char) :=
  row.take columns ++ List.replicate (columns - row.length) []

structure ParagraphReading where
  definitions : List Definition
  block? : Option Block
  taken : Nat

def linesWithin (width : Nat) : List (List Char) → Nat
  | [] => 0
  | line :: rest => if line.length ≤ width then linesWithin (width - line.length) rest + 1 else 0

/-- Reads the block that begins with the text `first` of a line. Definitions at
its start are taken out of it. -/
def readParagraph (frames : List Frame) (first newline : List Char) (following : List Line) :
    ParagraphReading :=
  let (continued, level?) := paragraphLines frames following
  let lines := (first ++ newline) :: continued
  let text := lines.flatten
  match Definition.read? text with
  | some (definition, rest) =>
    let taken := linesWithin (text.length - rest.length) lines - 1
    match h : following.drop taken with
    | [] => ⟨[definition], none, taken⟩
    | next :: below =>
      let (entered, c) := Frame.enterAll (.start next.chars) frames
      let (indent, inner) := c.indent 4
      let inside := entered == frames.length
      if Line.isBlank inner.rest ∨
          indent < 4 ∧ interruptsParagraph frames inner.rest inside below then
        ⟨[definition], none, taken⟩
      else
        have : below.length < following.length := by
          have := congrArg List.length h
          simp only [List.length_drop, List.length_cons] at this
          omega
        let reading := readParagraph frames inner.trimmed next.newline below
        ⟨definition :: reading.definitions, reading.block?, taken + 1 + reading.taken⟩
  | none =>
    match if barCount first = 0 then none else tableColumns? frames first following with
    | some columns =>
      let rows := tableRows frames (following.drop 1)
      let fit := fitRow columns.length
      ⟨[], some (.table columns (fit (cells first)) (rows.map fit)), 1 + rows.length⟩
    | none =>
      match level? with
      | some level => ⟨[], some (.heading level text), continued.length + 1⟩
      | none => ⟨[], some (.paragraph text), continued.length⟩
termination_by following.length

end DocSite.Markdown
