import DocSite.Naming
/-! Targets of links and images. A relative target names a source file; in the
output it names the file generated for it. -/
namespace DocSite.Markdown.Link

def endsPath (c : Char) : Bool := c == '#' || c == '?'

/-- The target for the output of the source file that `target` names. What follows
`#` or `?` stays as written. -/
def forOutput (isLink : Bool) (target : List Char) : List Char :=
  let path := target.takeWhile (!endsPath ·)
  let stripped := Naming.stripOrderPrefixes path
  let renamed := if isLink then Naming.htmlForMarkdown stripped else stripped
  Text.lower renamed ++ target.drop path.length

def isSchemeChar (c : Char) : Bool :=
  ('a' ≤ c && c ≤ 'z') || ('A' ≤ c && c ≤ 'Z') || ('0' ≤ c && c ≤ '9') ||
    c == '+' || c == '-' || c == '.'

def hasScheme (target : List Char) : Bool :=
  let scheme := target.takeWhile (· ≠ ':')
  target.contains ':' && !scheme.isEmpty && scheme.all isSchemeChar

def isRelative (target : List Char) : Bool :=
  !(target.isEmpty || target.head? == some '#' || target.head? == some '/' || hasScheme target)

def resolve (isLink : Bool) (target : List Char) : List Char :=
  if isRelative target then forOutput isLink target else target

/-- Text in which no bracket can open or close a tag. -/
def escapeBrackets (html : String) : String :=
  String.ofList (html.toList.flatMap fun c =>
    if c = '[' then ['&', '#', '9', '1', ';']
    else if c = ']' then ['&', '#', '9', '3', ';']
    else [c])

end DocSite.Markdown.Link
