import DocSite.Toml.Number
import DocSite.Toml.Table
import DocSite.Toml.Text
/-! Reading TOML documents. -/
namespace DocSite.Toml

/-- Arrays and inline tables are nested less than this deep, and keys have fewer parts. -/
def maxNesting : Nat := 80

def isBareKey (c : Char) : Bool :=
  ('a' ≤ c && c ≤ 'z') || ('A' ≤ c && c ≤ 'Z') || ('0' ≤ c && c ≤ '9') || c == '_' || c == '-'

def readSimpleKey? (s : List Char) : Option (String × List Char) :=
  if s.head?.any fun c => c == '\x22' || c == '\x27' then readString? false s
  else
    let key := s.takeWhile isBareKey
    if key.isEmpty then none else some (String.ofList key, s.drop key.length)

/-- Reads the parts of a key, between dots and blanks. -/
def readParts? (s : List Char) : Option (List String × List Char) :=
  match readSimpleKey? (skipSpace s) with
  | none => none
  | some (key, rest) =>
    match skipSpace rest with
    | '.' :: more =>
      if _ : more.length < s.length then
        (readParts? more).map fun (keys, after) => (key :: keys, after)
      else none
    | after => some ([key], after)
termination_by s.length

structure Key where
  path : List String
  last : String

def readKey? (s : List Char) : Option (Key × List Char) := do
  let (parts, rest) ← readParts? s
  let last ← parts.getLast?
  if maxNesting ≤ parts.length then none else return (⟨parts.dropLast, last⟩, rest)

def readNumber? (s : List Char) : Option (Value × List Char) :=
  if DateTime.begins s then (DateTime.read? s).map fun (d, rest) => (.dateTime d, rest)
  else
    match readDecimal? s with
    | some (text, rest) => (decimalValue? text).map fun x => (.float x, rest)
    | none =>
      match readWord? s with
      | some (x, rest) => some (.float x, rest)
      | none => (readInteger? s).map fun (n, rest) => (.integer n, rest)

def readBool? (s : List Char) : Option (Value × List Char) :=
  if ['t', 'r', 'u', 'e'].isPrefixOf s then some (.bool true, s.drop 4)
  else if ['f', 'a', 'l', 's', 'e'].isPrefixOf s then some (.bool false, s.drop 5)
  else none

mutual

/-- Reads a value in which arrays and tables are nested less than `depth` deep, in at
most `fuel` steps. -/
def readValue? (fuel depth : Nat) (s : List Char) : Option (Value × List Char) :=
  match fuel, s with
  | 0, _ => none
  | _, [] => none
  | fuel + 1, c :: rest =>
    if c = '\x22' ∨ c = '\x27' then
      (readString? true (c :: rest)).map fun (text, after) => (.string text, after)
    else if c = '[' then
      if depth ≤ 1 then none
      else (readItems? fuel (depth - 1) rest).map fun (items, after) => (.array items, after)
    else if c = '\x7b' then
      if depth ≤ 1 then none
      else
        match skipSpace rest with
        | '\x7d' :: after => some (.table [], after)
        | inner => (readPairs? fuel (depth - 1) (.mk .header []) inner).map fun (t, after) =>
            (t.toValue, after)
    else (readBool? (c :: rest)).or (readNumber? (c :: rest))

def readItems? (fuel depth : Nat) (s : List Char) : Option (List Value × List Char) :=
  match fuel with
  | 0 => none
  | fuel + 1 =>
    match skipLines s with
    | ']' :: rest => some ([], rest)
    | next => do
      let (item, rest) ← readValue? fuel depth next
      match skipLines rest with
      | ']' :: rest => return ([item], rest)
      | ',' :: rest =>
        let (items, after) ← readItems? fuel depth rest
        return (item :: items, after)
      | _ => none

def readPairs? (fuel depth : Nat) (t : Table) (s : List Char) : Option (Table × List Char) :=
  match fuel with
  | 0 => none
  | fuel + 1 => do
    let (key, rest) ← readKey? s
    match rest with
    | '=' :: rest =>
      let (value, rest) ← readValue? fuel depth (skipSpace rest)
      let t ← t.define? key.path key.last value
      match skipSpace rest with
      | '\x7d' :: rest => return (t, rest)
      | ',' :: rest => readPairs? fuel depth t rest
      | _ => none
    | _ => none

end

/-- The document as far as it is read, and the header that the next keys stand under. -/
structure Reading where
  root : Table
  header : List String

namespace Reading

def start : Reading := ⟨.mk .header [], []⟩

def header? (r : Reading) (s : List Char) : Option (Reading × List Char) :=
  match s with
  | '[' :: rest => do
    let (key, rest) ← readKey? rest
    match rest with
    | ']' :: ']' :: rest =>
      let root ← r.root.beginNext? key.path key.last
      return (⟨root, key.path ++ [key.last]⟩, ← restOfLine? rest)
    | _ => none
  | _ => do
    let (key, rest) ← readKey? s
    match rest with
    | ']' :: rest =>
      let root ← r.root.begin? key.path key.last
      return (⟨root, key.path ++ [key.last]⟩, ← restOfLine? rest)
    | _ => none

def pair? (r : Reading) (s : List Char) : Option (Reading × List Char) := do
  let (key, rest) ← readKey? s
  match rest with
  | '=' :: rest =>
    let text := skipSpace rest
    let (value, rest) ← readValue? (2 * text.length + 2) maxNesting text
    let root ← r.root.inside? r.header (·.define? key.path key.last value)
    return ({ r with root }, ← restOfLine? rest)
  | _ => none

def lines? (r : Reading) (s : List Char) : Option Reading :=
  match skipSpace s with
  | [] => some r
  | c :: rest =>
    let read? :=
      if c = '#' then (restOfLine? (c :: rest)).map (r, ·)
      else if c = '\n' ∨ c = '\r' then (newline? (c :: rest)).map (r, ·)
      else if c = '[' then r.header? rest
      else r.pair? (c :: rest)
    match read? with
    | some (next, after) => if _ : after.length < s.length then lines? next after else none
    | none => none
termination_by s.length

end Reading

def Value.read? (text : String) : Option Value :=
  let s := text.toList
  let s := if s.head? = some '\uFEFF' then s.drop 1 else s
  (Reading.start.lines? s).map (·.root.toValue)

end DocSite.Toml
