import DocSite.Markdown.Entity
import DocSite.Markdown.Line
/-! HTML inside Markdown: tags, comments and declarations in a text, and the
lines that begin a block of HTML. -/
namespace DocSite.Markdown.RawHtml

def isLetter (c : Char) : Bool := ('a' ≤ c && c ≤ 'z') || ('A' ≤ c && c ≤ 'Z')

def isNameChar (c : Char) : Bool := Entity.isAlphanumeric c || c == '-'

def startsAttribute (c : Char) : Bool := isLetter c || c == '_' || c == ':'

def isAttributeChar (c : Char) : Bool :=
  Entity.isAlphanumeric c || c == '_' || c == '.' || c == ':' || c == '-'

def isUnquoted (c : Char) : Bool :=
  !(isSpaceOrEnd c || c == '\x22' || c == '\x27' || c == '=' || c == '<' || c == '>' ||
    c == '\x60')

def after? (mark : List Char) : List Char → Option (List Char)
  | [] => if mark.isEmpty then some [] else none
  | c :: rest =>
    if mark.isPrefixOf (c :: rest) then some ((c :: rest).drop mark.length) else after? mark rest

def afterValue? (s : List Char) : Option (List Char) :=
  match s with
  | '\x22' :: rest => after? ['\x22'] rest
  | '\x27' :: rest => after? ['\x27'] rest
  | c :: _ => if isUnquoted c then some (s.dropWhile isUnquoted) else none
  | [] => none

def afterAttribute? (s : List Char) : Option (List Char) :=
  match s with
  | c :: rest =>
    if startsAttribute c then
      let named := rest.dropWhile isAttributeChar
      match named.dropWhile isSpaceOrEnd with
      | '=' :: value => afterValue? (value.dropWhile isSpaceOrEnd)
      | _ => some named
    else none
  | [] => none

def afterAttributes? (s : List Char) : Option (List Char) :=
  match s.dropWhile isSpaceOrEnd with
  | '>' :: rest => some rest
  | '/' :: '>' :: rest => some rest
  | next =>
    if next.length < s.length then
      match afterAttribute? next with
      | some rest => if _ : rest.length < s.length then afterAttributes? rest else none
      | none => none
    else none
termination_by s.length

def afterTag? (s : List Char) : Option (List Char) :=
  match s with
  | '/' :: c :: rest =>
    if isLetter c then
      match (rest.dropWhile isNameChar).dropWhile isSpace with
      | '>' :: after => some after
      | _ => none
    else none
  | c :: rest => if isLetter c then afterAttributes? (rest.dropWhile isNameChar) else none
  | [] => none

/-- The text after a tag, a comment, a declaration or an instruction, read after its `<`. -/
def afterInline? (s : List Char) : Option (List Char) :=
  match s with
  | '!' :: '-' :: '-' :: rest =>
    match rest with
    | '>' :: after => some after
    | '-' :: '>' :: after => some after
    | _ => after? ['-', '-', '>'] rest
  | '!' :: '[' :: rest =>
    if ['C', 'D', 'A', 'T', 'A', '['].isPrefixOf rest then after? [']', ']', '>'] (rest.drop 6)
    else none
  | '!' :: c :: rest => if isLetter c then after? ['>'] rest else none
  | '?' :: rest => after? ['?', '>'] rest
  | _ => afterTag? s

inductive BlockEnd where
  /-- With the line that holds `mark`. -/
  | mark (mark : List Char)
  /-- Before a blank line. -/
  | blank

/-- Elements whose text runs to their closing tag. -/
def verbatimElements : List String := ["pre", "style", "script", "textarea"]

def sameName (name : String) (s : List Char) : Bool := s.map Char.toLower == name.toList

/-- The mark that ends a block begun by `<` and this text, if a mark ends it. -/
def endMark? (s : List Char) : Option (List Char) :=
  let name := s.takeWhile isLetter
  let element? := verbatimElements.find? fun e =>
    sameName e name && (s.drop name.length).head?.all fun c => isSpace c || c == '>'
  match element? with
  | some element => some (['<', '/'] ++ element.toList ++ ['>'])
  | none =>
    match s with
    | '!' :: '-' :: '-' :: _ => some ['-', '-', '>']
    | '?' :: _ => some ['?', '>']
    | '!' :: c :: rest =>
      if ['[', 'C', 'D', 'A', 'T', 'A', '['].isPrefixOf (c :: rest) then some [']', ']', '>']
      else if isLetter c then some ['>']
      else none
    | _ => none

def blockElements : List String :=
  ["address", "article", "aside", "base", "basefont", "blockquote", "body", "caption",
    "center", "col", "colgroup", "dd", "details", "dialog", "dir", "div", "dl", "dt",
    "fieldset", "figcaption", "figure", "footer", "form", "frame", "frameset", "h1", "h2",
    "h3", "h4", "h5", "h6", "head", "header", "hr", "html", "iframe", "legend", "li", "link",
    "main", "menu", "menuitem", "nav", "noframes", "ol", "optgroup", "option", "p", "param",
    "search", "section", "summary", "table", "tbody", "td", "tfoot", "th", "thead", "title",
    "tr", "track", "ul"]

def startsBlockElement (s : List Char) : Bool :=
  let tag := match s with
    | '/' :: rest => rest
    | rest => rest
  let name := tag.takeWhile Entity.isAlphanumeric
  let next := tag.drop name.length
  blockElements.any (sameName · name) &&
    (next.head?.all (fun c => isSpaceOrTab c || c == '>') || ['/', '>'].isPrefixOf next)

def interrupts (s : List Char) : Bool :=
  match s with
  | '<' :: rest => (endMark? rest).isSome || startsBlockElement rest
  | _ => false

def blockEnd? (s : List Char) : Option BlockEnd :=
  match s with
  | '<' :: rest =>
    match endMark? rest with
    | some mark => some (.mark mark)
    | none =>
      if startsBlockElement rest || (afterTag? rest).any Line.isBlank then some .blank else none
  | _ => none

end DocSite.Markdown.RawHtml
