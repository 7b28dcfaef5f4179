import DocSite.Text.Blank
import DocSite.Yaml.Value
/-! Front matter: YAML between two lines of three hyphens at the start of a document. -/
namespace DocSite.Site

structure FrontMatter where
  title : Option String := none
  layout : Option String := none
  inMenu : Bool := true
  tags : List String := []
  /-- Values under other keys, in the order of the keys. -/
  extra : List (String × String) := []
deriving Repr, DecidableEq, Inhabited

namespace FrontMatter

inductive Error where
  /-- The text is no YAML, or not a mapping with fitting values. -/
  | yaml
  | unterminated
deriving DecidableEq, Repr

/-- The wording of an error, where it does not depend on the YAML. -/
def Error.message? : Error → Option String
  | .yaml => none
  | .unterminated => some "front matter opened with '---' but never closed"

def delimiter : List Char := ['-', '-', '-']

def isDelimiter (line : List Char) : Bool := Text.trimEnd line == delimiter

/-- The lines of a text, each with its line feed. -/
def splitLines (text : List Char) : List (List Char) :=
  match text with
  | [] => []
  | c :: rest =>
    let line := (c :: rest).takeWhile (· != '\n')
    let ended := (c :: rest).take (line.length + 1)
    ended :: splitLines (rest.drop (ended.length - 1))
termination_by text.length
decreasing_by simp only [List.length_drop, List.length_cons]; omega

inductive Parts where
  /-- No front matter: all is body. -/
  | body
  | unterminated
  | matter (yaml body : List Char)
deriving DecidableEq, Repr

def byteOrderMark : Char := '\uFEFF'

def withoutMark (document : List Char) : List Char :=
  if document.head? = some byteOrderMark then document.drop 1 else document

/-- Front matter begins if the first of several lines is a delimiter, and ends with
the next line that is one. -/
def split (document : List Char) : Parts :=
  let text := withoutMark document
  match splitLines text with
  | [] => .body
  | first :: rest =>
    if first.contains '\n' && isDelimiter first then
      match rest.dropWhile (!isDelimiter ·) with
      | [] => .unterminated
      | _ :: body => .matter (rest.takeWhile (!isDelimiter ·)).flatten body.flatten
    else .body

open Yaml

/-- The values of one key. A key that has a meaning may be given only once. -/
def field? (entries : List (String × Node)) (name : String) : Option (Option Node) :=
  match entries.filter (·.1 == name) with
  | [] => some none
  | [(_, node)] => some (some node)
  | _ => none

def value? (known : Bool) (node : Node) : Option Value := Value.ofNode? known (maxDepth - 1) node

/-- The text of a field, if it has one. -/
def text? (node? : Option Node) : Option (Option String) :=
  match node? with
  | none => some none
  | some node => (value? true node).map fun value =>
    match value with
    | .null => none
    | value => value.text?

def flag? (node? : Option Node) : Option Bool :=
  match node? with
  | none => some true
  | some (.scalar tag? .plain text) =>
    if tag? = some (Value.coreTag "null") then if isNull text then some true else none
    else if tag?.isNone && (text.isEmpty || isNull text) then some true
    else bool? text
  | some (.scalar (some tag) .literal text) =>
    if tag = Value.coreTag "bool" then bool? text else none
  | _ => none

/-- The tags of a sequence, or one tag. Empty ones and what is no text are left out. -/
def tagList (value : Value) : List String :=
  let texts := match value with
    | .sequence items => items.filterMap Value.text?
    | value => value.text?.toList
  texts.filter (!·.isEmpty)

def tags? (node? : Option Node) : Option (List String) :=
  match node? with
  | none => some []
  | some node => (value? true node).map tagList

def fieldNames : List String := ["title", "layout", "in_menu", "tags"]

/-- Sets the value of a key, keeping the keys in order. -/
def put (extra : List (String × String)) (key text : String) : List (String × String) :=
  match extra with
  | [] => [(key, text)]
  | (k, t) :: rest =>
    if key < k then (key, text) :: (k, t) :: rest
    else if key = k then (key, text) :: rest
    else (k, t) :: put rest key text

def remove (extra : List (String × String)) (key : String) : List (String × String) :=
  extra.filter (·.1 != key)

/-- The text of every other key. Of several values under a key the last counts. -/
def extra? (entries : List (String × Node)) : Option (List (String × String)) :=
  (entries.filter (!fieldNames.contains ·.1)).foldl
    (fun extra? (key, node) => do
      let extra ← extra?
      let value ← value? false node
      return match value.text? with
        | some text => put extra key text
        | none => remove extra key)
    (some [])

def keyed? (entries : List (Node × Node)) : Option (List (String × Node)) :=
  entries.mapM fun (key, value) =>
    match key with
    | .scalar _ _ text => some (text, value)
    | _ => none

def ofEntries? (entries : List (String × Node)) : Option FrontMatter := do
  return {
    title := ← text? (← field? entries "title")
    layout := ← text? (← field? entries "layout")
    inMenu := ← flag? (← field? entries "in_menu")
    tags := ← tags? (← field? entries "tags")
    extra := ← extra? entries }

def ofNode? : Node → Option FrontMatter
  | .mapping _ entries => (keyed? entries).bind ofEntries?
  | .scalar _ .plain "" => some {}
  | _ => none

def ofYaml? (yaml : List Char) : Option FrontMatter :=
  if (Text.trim yaml).isEmpty then some {} else (Node.read? yaml).bind ofNode?

def parse (document : String) : Except Error (FrontMatter × String) :=
  match split document.toList with
  | .body => .ok ({}, document)
  | .unterminated => .error .unterminated
  | .matter yaml body =>
    match ofYaml? yaml with
    | some matter => .ok (matter, String.ofList body)
    | none => .error .yaml

end FrontMatter
end DocSite.Site
