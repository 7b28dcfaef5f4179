import DocSite.Markdown.Content
import DocSite.Markdown.Link
import DocSite.Markdown.Outline
/-! A document as HTML. Block elements begin on a line of their own; notes are
numbered in the order in which their labels first appear. -/
namespace DocSite.Markdown

structure Writer where
  html : String
  noted : List (List Char)

namespace Writer

def put (w : Writer) (s : String) : Writer := { w with html := w.html ++ s }

/-- Writes at the start of a line. -/
def putFresh (w : Writer) (s : String) : Writer :=
  if w.html.isEmpty || w.html.endsWith "\n" then w.put s else (w.put "\n").put s

def escapeChar (quotes : Bool) (c : Char) : List Char :=
  if c = '&' then "&amp;".toList
  else if c = '<' then "&lt;".toList
  else if c = '>' then "&gt;".toList
  else if c = '\x22' ∧ quotes then "&quot;".toList
  else [c]

def putText (w : Writer) (text : List Char) : Writer :=
  w.put (String.ofList (text.flatMap (escapeChar false)))

def putValue (w : Writer) (text : List Char) : Writer :=
  w.put (String.ofList (text.flatMap (escapeChar true)))

/-- Whether a character stands for itself in an address. -/
def isAddressChar (c : Char) : Bool :=
  Entity.isAlphanumeric c || "!#$%()*+,-./:;=?@_~".toList.contains c

def hexDigit (n : Nat) : Char := Char.ofNat (if n < 10 then 48 + n else 55 + n)

def percent (c : Char) : List Char :=
  (String.singleton c).toUTF8.toList.flatMap fun byte =>
    ['%', hexDigit (byte.toNat / 16), hexDigit (byte.toNat % 16)]

def addressChar (c : Char) : List Char :=
  if isAddressChar c then [c]
  else if c = '&' then "&amp;".toList
  else if c = '\x27' then "&#x27;".toList
  else percent c

def putAddress (w : Writer) (address : List Char) : Writer :=
  w.put (String.ofList (address.flatMap addressChar))

/-- The number of a note, given out when its label is first met. -/
def number (w : Writer) (label : List Char) : Nat × Writer :=
  match w.noted.idxOf? label with
  | some i => (i + 1, w)
  | none => (w.noted.length + 1, { w with noted := w.noted ++ [label] })

def styleName : Style → String
  | .emphasis => "em"
  | .strong => "strong"
  | .deleted => "del"

def putTitle (w : Writer) (title : List Char) : Writer :=
  if title.isEmpty then w else ((w.put "\" title=\"").putValue title)

mutual

def altText (w : Writer) : Inline → Writer
  | .text text | .code text | .html text => w.putValue text
  | .softBreak | .hardBreak => w.put " "
  | .noteReference label =>
    let (n, w) := w.number label
    w.put s!"[{n}]"
  | .styled _ content | .link _ content | .image _ content => altTexts w content
  | .autolink address _ => w.putValue address

def altTexts (w : Writer) : List Inline → Writer
  | [] => w
  | inline :: rest => altTexts (altText w inline) rest

end

mutual

def putInline (w : Writer) : Inline → Writer
  | .text text => w.putText text
  | .code text => ((w.put "<code>").putText text).put "</code>"
  | .html text => w.put (String.ofList text)
  | .softBreak => w.put "\n"
  | .hardBreak => w.put "<br />\n"
  | .noteReference label =>
    let w := ((w.put "<sup class=\"footnote-reference\"><a href=\"#").putValue label).put "\">"
    let (n, w) := w.number label
    w.put s!"{n}</a></sup>"
  | .styled style content =>
    (putInlines (w.put s!"<{styleName style}>") content).put s!"</{styleName style}>"
  | .link target content =>
    let w := (w.put "<a href=\"").putAddress (Link.resolve true target.destination)
    (putInlines ((w.putTitle target.title).put "\">") content).put "</a>"
  | .autolink address email =>
    let w := w.put (if email then "<a href=\"mailto:" else "<a href=\"")
    (((w.putAddress (Link.resolve true address)).put "\">").putText address).put "</a>"
  | .image target content =>
    let w := (w.put "<img src=\"").putAddress (Link.resolve false target.destination)
    ((altTexts (w.put "\" alt=\"") content).putTitle target.title).put "\" />"

def putInlines (w : Writer) : List Inline → Writer
  | [] => w
  | inline :: rest => putInlines (putInline w inline) rest

end

def putContent (document : Document) (w : Writer) (text : List Char) : Writer :=
  w.putInlines (Inline.read document text)

/-- The opening of a table cell, without its `>`. -/
def cellStart (name : String) (column : Alignment) : String :=
  match column with
  | .none => s!"<{name}>"
  | .left => s!"<{name} style=\"text-align: left\">"
  | .center => s!"<{name} style=\"text-align: center\">"
  | .right => s!"<{name} style=\"text-align: right\">"

def putCells (document : Document) (name : String) (columns : List Alignment)
    (row : List (List Char)) (w : Writer) : Writer :=
  (columns.zip row).foldl
    (fun w (column, cell) =>
      (putContent document (w.put (cellStart name column)) cell).put s!"</{name}>")
    w

def putRow (document : Document) (columns : List Alignment) (w : Writer)
    (row : List (List Char)) : Writer :=
  (putCells document "td" columns row (w.put "<tr>")).put "</tr>\n"

/-- The language of a code block: the first word of its info text. -/
def language (info : List Char) : List Char := info.takeWhile (· != ' ')

mutual

/-- Writes a block. Where `bare` holds, a paragraph is written without its tags. -/
def putBlock (document : Document) (bare : Bool) (w : Writer) : Block → Writer
  | .paragraph text =>
    if bare then putContent document w text
    else (putContent document (w.putFresh "<p>") text).put "</p>\n"
  | .heading level text =>
    (putContent document (w.putFresh s!"<h{level}>") text).put s!"</h{level}>\n"
  | .thematicBreak => w.putFresh "<hr />\n"
  | .code info? text =>
    let w := match info?.map language with
      | some (c :: name) =>
        ((w.putFresh "<pre><code class=\"language-").putValue (c :: name)).put "\">"
      | _ => w.putFresh "<pre><code>"
    (w.putText text).put "</code></pre>\n"
  | .html text => w.put (String.ofList text)
  | .quote blocks =>
    (putBlocks document false (w.putFresh "<blockquote>\n") blocks).put "</blockquote>\n"
  | .list start? tight items =>
    match start? with
    | none => (putItems document tight (w.putFresh "<ul>\n") items).put "</ul>\n"
    | some n =>
      let opening := if n = 1 then "<ol>\n" else s!"<ol start=\"{n}\">\n"
      (putItems document tight (w.putFresh opening) items).put "</ol>\n"
  | .note label blocks =>
    let w := (w.putFresh "<div class=\"footnote-definition\" id=\"").putValue label
    let (n, w) := (w.put "\"><sup class=\"footnote-definition-label\">").number label
    (putBlocks document false (w.put s!"{n}</sup>") blocks).put "</div>\n"
  | .table columns head rows =>
    let w := putCells document "th" columns head (w.put "<table><thead><tr>")
    (rows.foldl (putRow document columns) (w.put "</tr></thead><tbody>\n")).put "</tbody></table>\n"

def putBlocks (document : Document) (bare : Bool) (w : Writer) : List Block → Writer
  | [] => w
  | block :: rest => putBlocks document bare (putBlock document bare w block) rest

def putItems (document : Document) (bare : Bool) (w : Writer) : List (List Block) → Writer
  | [] => w
  | item :: rest =>
    putItems document bare ((putBlocks document bare (w.putFresh "<li>") item).put "</li>\n") rest

end
end Writer

def toHtml (markdown : String) : String :=
  let document := Document.read markdown.toList
  (Writer.putBlocks document false ⟨"", []⟩ document.blocks).html

end DocSite.Markdown
