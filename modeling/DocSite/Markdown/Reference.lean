import DocSite.Markdown.Entity
import DocSite.Markdown.Line
import DocSite.Text.Blank
import DocSite.Text.Lowercase
/-! Labels, targets and titles of links, and the definitions that give a label
its target. Each reader takes the text after what opens the thing and returns
the text after what closes it. -/
namespace DocSite.Markdown

structure Target where
  destination : List Char
  title : List Char

namespace Label

/-- A label has fewer characters than this. -/
def maxLength : Nat := 1000

/-- Reads a label after its `[`. `used` counts the characters read so far. -/
def readFrom (used : Nat) : List Char → Option (List Char × List Char)
  | [] => none
  | c :: rest =>
    if maxLength ≤ used ∨ c = '[' then none
    else if c = ']' then some ([], rest)
    else if c = '\\' then
      match rest with
      | d :: more => (readFrom (used + 2) more).map fun (label, after) => (c :: d :: label, after)
      | [] => none
    else (readFrom (used + 1) rest).map fun (label, after) => (c :: label, after)

/-- The text with each run of blanks as one space. -/
def collapse : List Char → List Char
  | [] => []
  | c :: rest =>
    if isSpaceOrEnd c then
      if rest.head?.any isSpaceOrEnd then collapse rest else ' ' :: collapse rest
    else c :: collapse rest

/-- Reads a label after its `[`. A label holds more than blanks. -/
def read? (s : List Char) : Option (List Char × List Char) :=
  match readFrom 0 s with
  | some (label, rest) => if label.all isSpaceOrEnd then none else some (collapse label, rest)
  | none => none

/-- The form in which labels are compared. -/
def key (label : List Char) : List Char := Text.fold (Text.trim label)

/-- Reads the label of a note after its `[^`. It stays on one line. -/
def readNote? (s : List Char) : Option (List Char × List Char) :=
  match readFrom 0 s with
  | some (label, rest) =>
    if label.all isSpaceOrEnd || label.contains '\n' then none else some (collapse label, rest)
  | none => none

end Label

namespace Target

/-- Parentheses in the destination of a link nest at most this deep. -/
def maxNesting : Nat := 32

def readEnclosed : List Char → Option (List Char × List Char)
  | [] => none
  | '>' :: rest => some ([], rest)
  | '\\' :: c :: rest =>
    if Text.isAsciiPunctuation c then
      (readEnclosed rest).map fun (text, after) => ('\\' :: c :: text, after)
    else (readEnclosed (c :: rest)).map fun (text, after) => ('\\' :: text, after)
  | c :: rest =>
    if c = '\n' ∨ c = '<' then none
    else (readEnclosed rest).map fun (text, after) => (c :: text, after)

/-- Reads a destination that ends at a blank or at a parenthesis it did not open. -/
def readBare (limit depth : Nat) : List Char → Option (List Char × List Char)
  | [] => if depth = 0 then some ([], []) else none
  | '\\' :: c :: rest =>
    if Text.isAsciiPunctuation c then
      (readBare limit depth rest).map fun (text, after) => ('\\' :: c :: text, after)
    else (readBare limit depth (c :: rest)).map fun (text, after) => ('\\' :: text, after)
  | c :: rest =>
    if c ≤ ' ' then if depth = 0 then some ([], c :: rest) else none
    else if c = ')' ∧ depth = 0 then some ([], c :: rest)
    else if c = '(' ∧ limit < depth then none
    else
      let inner := if c = '(' then depth + 1 else if c = ')' then depth - 1 else depth
      (readBare limit inner rest).map fun (text, after) => (c :: text, after)

def readDestination? (limit : Nat) (s : List Char) : Option (List Char × List Char) :=
  match s with
  | '<' :: rest => readEnclosed rest
  | _ => readBare limit 0 s

/-- Reads a title up to `close`. Blanks that begin a line do not belong to it. -/
def readTitleTo (opening close : Char) (atStart : Bool) :
    List Char → Option (List Char × List Char)
  | [] => none
  | '\\' :: c :: rest =>
    if Text.isAsciiPunctuation c then
      (readTitleTo opening close false rest).map fun (text, after) => ('\\' :: c :: text, after)
    else
      (readTitleTo opening close false (c :: rest)).map fun (text, after) => ('\\' :: text, after)
  | c :: rest =>
    if c = close then some ([], rest)
    else if c = opening then none
    else if atStart ∧ isSpaceOrTab c then readTitleTo opening close true rest
    else (readTitleTo opening close (c == '\n') rest).map fun (text, after) => (c :: text, after)

def readTitle? (s : List Char) : Option (List Char × List Char) :=
  match s with
  | '\x22' :: rest => readTitleTo '\x22' '\x22' false rest
  | '\x27' :: rest => readTitleTo '\x27' '\x27' false rest
  | '(' :: rest => readTitleTo '(' ')' false rest
  | _ => none

def skipSeparator (s : List Char) : List Char :=
  match s.dropWhile isSpace with
  | '\n' :: rest => rest.dropWhile isSpace
  | rest => rest

def readInline? (s : List Char) : Option (Target × List Char) :=
  match readDestination? maxNesting (skipSeparator s) with
  | none => none
  | some (destination, rest) =>
    let next := skipSeparator rest
    let (title, last) := match readTitle? next with
      | some (title, after) => (title, skipSeparator after)
      | none => ([], next)
    match last with
    | ')' :: after => some (⟨Entity.unescape destination, Entity.unescape title⟩, after)
    | _ => none

end Target

structure Definition where
  label : List Char
  target : Target

namespace Definition

/-- Parentheses in the destination of a definition nest at most this deep. -/
def maxNesting : Nat := 1

def lineEnd? (s : List Char) : Option (List Char) :=
  match s.dropWhile isSpace with
  | [] => some []
  | '\n' :: rest => some rest
  | _ => none

def readTitle? (s : List Char) : Option (List Char × List Char) :=
  match Target.readTitle? s with
  | some (title, rest) => (lineEnd? rest).map (title, ·)
  | none => none

def read? (s : List Char) : Option (Definition × List Char) :=
  match s with
  | '[' :: labelled =>
    match Label.read? labelled with
    | some (label, ':' :: afterColon) =>
      match Target.readDestination? maxNesting (Target.skipSeparator afterColon) with
      | some (destination, rest) =>
        let enclosed := (Target.skipSeparator afterColon).head? == some '<'
        if destination.isEmpty && !enclosed then none
        else
          let define := fun title : List Char =>
            (⟨label, ⟨Entity.unescape destination, Entity.unescape title⟩⟩ : Definition)
          let next := rest.dropWhile isSpace
          match next with
          | [] => some (define [], [])
          | '\n' :: below =>
            match readTitle? (below.dropWhile isSpace) with
            | some (title, after) => some (define title, after)
            | none => some (define [], below)
          | _ =>
            if next.length < rest.length then
              (readTitle? next).map fun (title, after) => (define title, after)
            else none
      | none => none
    | _ => none
  | _ => none

def find? (definitions : List Definition) (label : List Char) : Option Target :=
  (definitions.find? fun d => Label.key d.label == Label.key label).map (·.target)

end Definition
end DocSite.Markdown
