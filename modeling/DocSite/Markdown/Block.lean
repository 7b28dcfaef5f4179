import DocSite.Markdown.Marker
import DocSite.Markdown.Reference
/-! Blocks: the parts that a Markdown document is divided into before the text
inside them is read. -/
namespace DocSite.Markdown

inductive Block where
  | paragraph (text : List Char)
  | heading (level : Nat) (text : List Char)
  | thematicBreak
  /-- Code between fences has an info text, indented code has none. -/
  | code (info? : Option (List Char)) (text : List Char)
  | html (text : List Char)
  | quote (blocks : List Block)
  /-- Only a numbered list has a start. The paragraphs of a tight list stand by themselves. -/
  | list (start? : Option Nat) (tight : Bool) (items : List (List Block))
  | note (label : List Char) (blocks : List Block)
  | table (columns : List Alignment) (head : List (List Char)) (rows : List (List (List Char)))

/-- A document: its blocks, the targets it defines and the labels of its notes. -/
structure Document where
  blocks : List Block
  definitions : List Definition
  notes : List (List Char)

end DocSite.Markdown
