import DocSite.Markdown.RawHtml
import DocSite.Markdown.Reference
/-! The text inside a block as a tree, and the runs of marks from which the
emphasis in it is made. -/
namespace DocSite.Markdown

inductive Style where
  | emphasis | strong | deleted
deriving DecidableEq, Repr

inductive Inline where
  | text (text : List Char)
  | code (text : List Char)
  | html (text : List Char)
  | softBreak
  | hardBreak
  | noteReference (label : List Char)
  | styled (style : Style) (content : List Inline)
  | link (target : Target) (content : List Inline)
  /-- A link whose text is its address. -/
  | autolink (address : List Char) (email : Bool)
  | image (target : Target) (content : List Inline)

/-- A run of `*`, `_` or `~`. `count` of its `length` marks are still unused. -/
structure Run where
  mark : Char
  length : Nat
  count : Nat
  opens : Bool
  closes : Bool

inductive Node where
  | done (inline : Inline)
  | run (run : Run)
  /-- A bracket that may begin a link or an image, with the text after it. -/
  | bracket (image live : Bool) (after : List Char)

namespace Node

def plain (text : List Char) : Node := .done (.text text)

/-- A bracket that begins nothing is text. -/
def settle : Node → Node
  | .bracket image _ _ => plain (if image then ['!', '['] else ['['])
  | node => node

/-- Marks that style nothing are text. -/
def toInline : Node → Inline
  | .done inline => inline
  | .run marks => .text (List.replicate marks.count marks.mark)
  | .bracket image _ _ => .text (if image then ['!', '['] else ['['])

/-- A link holds no link: the brackets around one begin none. -/
def deactivate : Node → Node
  | .bracket false _ after => .bracket false false after
  | node => node

end Node

namespace Run

def canOpen (mark : Char) (length : Nat) (before next : Option Char) : Bool :=
  match next with
  | none => false
  | some n =>
    !Text.isBlank n &&
      match before with
      | none => true
      | some b =>
        (mark == '*' && !Text.isPunctuation n) || (mark == '~' && 1 < length) ||
          Text.isBlank b || Text.isPunctuation b

def canClose (mark : Char) (length : Nat) (before next : Option Char) : Bool :=
  match before with
  | none => false
  | some b =>
    !Text.isBlank b &&
      match next with
      | none => true
      | some n =>
        ((mark == '*' || (mark == '~' && 1 < length)) && !Text.isPunctuation b) ||
          Text.isBlank n || Text.isPunctuation n

def matches? (opener closer : Run) : Bool :=
  opener.mark == closer.mark && opener.opens &&
    (closer.mark != '~' || opener.length == closer.length) &&
    (!(opener.opens && opener.closes) && !(closer.opens && closer.closes) ||
      (opener.length + closer.length) % 3 != 0 || closer.length % 3 == 0)

/-- Puts `marks` marks on either side around the content, two of them at a time. -/
def wrap (mark : Char) (marks : Nat) (content : List Inline) : List Inline :=
  match marks with
  | 0 => content
  | 1 => [.styled (if mark = '~' then .deleted else .emphasis) content]
  | rest + 2 => wrap mark rest [.styled (if mark = '~' then .deleted else .strong) content]

/-- Divides nodes, latest first, at the latest run that `closer` can end. -/
def split (closer : Run) : List Node → Option (List Node × Run × List Node)
  | [] => none
  | node :: earlier =>
    match node with
    | .run opener =>
      if opener.matches? closer then some ([], opener, earlier)
      else (split closer earlier).map fun (inside, o, outside) => (node :: inside, o, outside)
    | _ => (split closer earlier).map fun (inside, o, outside) => (node :: inside, o, outside)

/-- Adds a run to nodes, latest first, and ends with it as much as it can. -/
def closeOver (nodes : List Node) (run : Run) : List Node :=
  if run.count = 0 then nodes
  else
    match if run.closes then split run nodes else none with
    | some (inside, opener, outside) =>
      let used := min run.count opener.count
      let styled := (wrap run.mark used (inside.reverse.map Node.toInline)).map Node.done
      let left := if opener.count = used then []
        else [Node.run { opener with count := opener.count - used }]
      if _ : run.count - used < run.count then
        closeOver (styled ++ left ++ outside) { run with count := run.count - used }
      else .run run :: nodes
    | none => .run run :: nodes
termination_by run.count

end Run

def resolveStyles (nodes : List Node) : List Inline :=
  let resolved := nodes.foldl
    (fun earlier node => match node with
      | .run run => run.closeOver earlier
      | node => node :: earlier) []
  resolved.reverse.map Node.toInline

end DocSite.Markdown
