import DocSite.Markdown.Block
/-! Blocks that hold other blocks, while lines are still added to them. -/
namespace DocSite.Markdown

structure OpenItem where
  indent : Nat
  /-- Latest first. -/
  blocks : List Block

/-- A block that is not finished. Its blocks and items are kept latest first. -/
inductive Frame where
  | quote (blocks : List Block)
  | note (label : List Char) (blocks : List Block)
  | list (delimiter : Char) (start : Nat) (tight : Bool) (items : List (List Block))
      (item? : Option OpenItem)

namespace Frame

/-- The place in a line after what continues this block. -/
def enter? (c : Cursor) : Frame → Option Cursor
  | .quote _ => (c.indent 3).2.quoteMark?
  | .note _ _ => continue? 4
  | .list _ _ _ _ none => some c
  | .list _ _ _ _ (some item) => continue? item.indent
where
  continue? (indent : Nat) : Option Cursor :=
    let (missing, after) := c.skip indent
    if missing = 0 ∨ after.rest.isEmpty then some after else none

/-- How many of these frames, outermost first, a line continues, and the place after them. -/
def enterAll (c : Cursor) : List Frame → Nat × Cursor
  | [] => (0, c)
  | frame :: inner =>
    match frame.enter? c with
    | some after => let (n, last) := enterAll after inner; (n + 1, last)
    | none => (0, c)

def add (block : Block) : Frame → Frame
  | .quote blocks => .quote (block :: blocks)
  | .note label blocks => .note label (block :: blocks)
  | .list d s t items (some item) =>
    .list d s t items (some { item with blocks := block :: item.blocks })
  | .list d s t items none => .list d s t ([block] :: items) none

def closeItem : Frame → Frame
  | .list d s t items (some item) => .list d s t (item.blocks.reverse :: items) none
  | frame => frame

def isNumbering (delimiter : Char) : Bool := delimiter == '.' || delimiter == ')'

def close (frame : Frame) : Block :=
  match frame.closeItem with
  | .quote blocks => .quote blocks.reverse
  | .note label blocks => .note label blocks.reverse
  | .list delimiter start tight items _ =>
    .list (if isNumbering delimiter then some start else none) tight items.reverse

end Frame
end DocSite.Markdown
