import DocSite.Markdown.Paragraph
/-! Reading a document line by line into blocks. An outline holds the blocks
that are finished and the frames that following lines may continue. -/
namespace DocSite.Markdown

structure Outline where
  /-- Innermost first. -/
  frames : List Frame
  /-- Finished blocks, latest first. -/
  blocks : List Block
  afterBlank : Bool
  /-- Whether the current item has a marker and nothing else. -/
  itemBlank : Bool
  definitions : List Definition
  notes : List (List Char)

namespace Outline

def empty : Outline := ⟨[], [], false, false, [], []⟩

def add (o : Outline) (block : Block) : Outline :=
  match o.frames with
  | frame :: outer => { o with frames := frame.add block :: outer }
  | [] => { o with blocks := block :: o.blocks }

def pop (o : Outline) : Outline :=
  match o.frames with
  | .list d s t items item :: outer =>
    { o with frames := outer, itemBlank := false }.add (Frame.list d s t items item).close
  | frame :: outer => { o with frames := outer }.add frame.close
  | [] => o

def popMany : Nat → Outline → Outline
  | 0, o => o
  | n + 1, o => popMany n o.pop

/-- Finishes what a line that continues `entered` frames does not continue. The
list of an item that it does not continue stays. -/
def leave (o : Outline) (entered : Nat) : Outline :=
  match o.frames.length - entered with
  | 0 => o
  | extra + 1 =>
    let o := popMany extra o
    match o.frames with
    | .list d s t items item :: outer =>
      { o with frames := (Frame.list d s t items item).closeItem :: outer }
    | _ => o.pop

def loosen (o : Outline) : Outline :=
  match o.frames with
  | .list d s _ items item :: outer => { o with frames := .list d s false items item :: outer }
  | _ => o

/-- An item that began blank ends with the blank line after it. -/
def finishBlankItem (o : Outline) : Outline :=
  match o.frames with
  | .list d s t items (some item) :: outer =>
    if o.itemBlank && o.afterBlank then
      { o with
        itemBlank := false
        frames := (Frame.list d s t items (some item)).closeItem :: outer }
    else { o with itemBlank := false }
  | _ => { o with itemBlank := false }

/-- Ends a list that has no open item. A blank line before a later block makes the
list around it loose. -/
def finishList (o : Outline) : Outline :=
  let o := o.finishBlankItem
  let o := match o.frames with
    | .list _ _ _ _ none :: _ => o.pop
    | _ => o
  if o.afterBlank then
    let o := { o with afterBlank := false }
    match o.frames with
    | .list _ _ _ _ (some _) :: _ => o.loosen
    | _ => o
  else o

/-- Begins an item, in the innermost list if that has the same marks. -/
def beginItem (o : Outline) (marker : ItemMarker) : Outline :=
  let o := o.finishBlankItem
  let item : OpenItem := ⟨marker.indent, []⟩
  match o.frames with
  | .list d s tight items none :: outer =>
    if d = marker.delimiter then
      { o with
        afterBlank := false
        frames := .list d s (tight && !o.afterBlank) items (some item) :: outer }
    else fresh o.finishList item
  | _ => fresh o.finishList item
where
  fresh (o : Outline) (item : OpenItem) : Outline :=
    { o with
      afterBlank := false
      frames := .list marker.delimiter marker.number true [] (some item) :: o.frames }

def beginNote (o : Outline) (label : List Char) : Outline :=
  let o := o.finishList
  let o := match o.frames with
    | .note _ _ :: _ => o.pop
    | _ => o
  { o with frames := .note label [] :: o.frames, notes := label :: o.notes }

def beginQuote (o : Outline) : Outline :=
  let o := o.finishList
  { o with frames := .quote [] :: o.frames }

/-- Opens the blocks whose marks a line begins with and gives the place after
them, unless the line ends with the marker of an item. -/
def openFrames (o : Outline) (c : Cursor) : Outline × Option Cursor :=
  let (indent, inner) := c.indent 4
  if indent = 4 then (o, some c)
  else
    match noteLabel? inner.rest with
    | some (label, rest) =>
      if _ : rest.length < c.rest.length then openFrames (o.beginNote label) (.start rest)
      else (o, some c)
    | none =>
      match ItemMarker.read? indent inner with
      | some marker =>
        let o := o.beginItem marker
        if Line.isBlank marker.rest.rest then ({ o with itemBlank := true }, none)
        else if _ : marker.rest.rest.length < c.rest.length then openFrames o marker.rest
        else (o, some c)
      | none =>
        match inner.quoteMark? with
        | some after =>
          if _ : after.rest.length < c.rest.length then openFrames o.beginQuote after
          else (o, some c)
        | none => (o, some c)
termination_by c.rest.length

def blankLine (o : Outline) : Outline :=
  match o.frames with
  | .quote _ :: _ => o
  | .list d s t items (some item) :: outer =>
    if o.itemBlank then
      { o with
        afterBlank := true
        frames := .list d s t items (some { item with indent := 0 }) :: outer }
    else { o with afterBlank := true }
  | _ => { o with afterBlank := true }

def fencedLines (frames : List Frame) (indent : Nat) (fence : Fence) :
    List Line → List Char × Nat
  | [] => ([], 0)
  | line :: following =>
    let (entered, c) := Frame.enterAll (.start line.chars) frames
    if entered < frames.length then ([], 0)
    else
      let (_, inner) := c.indent indent
      let (more, mark) := inner.indent (4 - indent)
      if more < 4 - indent ∧ fence.closedBy mark.rest then ([], 1)
      else
        let (text, taken) := fencedLines frames indent fence following
        (inner.text ++ line.ending ++ text, taken + 1)

def codeLines (frames : List Frame) : List Line → List (Bool × List Char)
  | [] => []
  | line :: following =>
    let (entered, c) := Frame.enterAll (.start line.chars) frames
    let (indent, inner) := c.indent 4
    if entered = frames.length ∧ (indent = 4 ∨ inner.rest.isEmpty) then
      (Line.isBlank inner.rest, inner.text ++ line.ending) :: codeLines frames following
    else []

def htmlLines (frames : List Frame) (blockEnd : RawHtml.BlockEnd) (last : List Char) :
    List Line → List (List Char)
  | [] => []
  | line :: following =>
    let (entered, c) := Frame.enterAll (.start line.chars) frames
    let ends : Bool := match blockEnd with
      | .mark mark => (RawHtml.after? mark last).isSome
      | .blank => Line.isBlank c.rest
    if entered < frames.length || ends then []
    else (c.text ++ line.ending) :: htmlLines frames blockEnd c.rest following

def indentedCode (o : Outline) (c : Cursor) (ending : List Char) (following : List Line) :
    Outline × Nat :=
  let more := codeLines o.frames.reverse following
  let kept := (more.reverse.dropWhile (·.1)).reverse
  let text := c.text ++ ending ++ (kept.map (·.2)).flatten
  ({ o.add (.code none text) with afterBlank := kept.length < more.length }, more.length)

/-- Reads the block that begins at `c`, where no block holding others begins, and
says how many lines it takes after this one. -/
def leaf (o : Outline) (c : Cursor) (line : Line) (following : List Line) :
    Outline × Nat :=
  let o := o.finishList
  let frames := o.frames.reverse
  let (indent, inner) := c.indent 4
  let text := inner.rest
  if indent = 4 then o.indentedCode inner line.ending following
  else
    match RawHtml.blockEnd? text with
    | some blockEnd =>
      let more := htmlLines frames blockEnd text following
      let first := List.replicate indent ' ' ++ text ++ line.ending
      (o.add (.html (first ++ more.flatten)), more.length)
    | none =>
      if isThematicBreak text then (o.add .thematicBreak, 0)
      else
        match heading? text with
        | some (level, title) => (o.add (.heading level title), 0)
        | none =>
          match Fence.read? text with
          | some fence =>
            let (code, taken) := fencedLines frames indent fence following
            (o.add (.code (some (Entity.unescape fence.info)) code), taken)
          | none =>
            let reading := readParagraph frames text line.newline following
            let o := { o with definitions := o.definitions ++ reading.definitions }
            (reading.block?.elim o o.add, reading.taken)

/-- Takes in a line and says how many of the lines after it belong to its block. -/
def take (o : Outline) (line : Line) (following : List Line) : Outline × Nat :=
  let (entered, c) := Frame.enterAll (.start line.chars) o.frames.reverse
  match (o.leave entered).openFrames c with
  | (o, none) => (o, 0)
  | (o, some c) =>
    if Line.isBlank c.rest then (o.blankLine, 0) else o.leaf c line following

def takeAll (o : Outline) : List Line → Outline
  | [] => o
  | line :: following =>
    let (o, taken) := o.take line following
    takeAll o (following.drop taken)
termination_by lines => lines.length
decreasing_by simp only [List.length_drop, List.length_cons]; omega

end Outline

def Document.read (text : List Char) : Document :=
  let o := Outline.empty.takeAll (Line.split text)
  let o := Outline.popMany o.frames.length o
  ⟨o.blocks.reverse, o.definitions, o.notes⟩

end DocSite.Markdown
