import DocSite.Yaml.Scalar
/-! Tokens of YAML. Indentation becomes tokens of its own, and a key is known as
one only when its colon comes: its tokens are put in where it began. -/
namespace DocSite.Yaml

inductive Token where
  | version (major minor : Nat)
  | tagDirective (handle leading : String)
  | documentStart | documentEnd
  | blockSequence | blockMapping | blockEnd
  | sequenceStart | sequenceEnd | mappingStart | mappingEnd
  | blockEntry | flowEntry | key | value
  | alias (name : String)
  | anchor (name : String)
  | tag (handle suffix : String)
  | scalar (style : Style) (text : String)
deriving DecidableEq, Repr

structure PossibleKey where
  /-- A key is the only thing that can stand here. -/
  required : Bool
  /-- How many tokens came before it. -/
  position : Nat
  line : Nat
  column : Nat
  index : Nat

structure Scanner where
  place : Place
  /-- The columns of the open blocks, innermost first. -/
  indents : List Nat
  /-- What may have begun a key: in the block first, then in each open bracket, innermost first. -/
  keys : List (Option PossibleKey)
  keyAllowed : Bool
  /-- Latest first. -/
  tokens : List Token

namespace Scanner

def start (text : List Char) : Scanner := ⟨.start text, [], [none], true, []⟩

def inFlow (s : Scanner) : Bool := 1 < s.keys.length

def put (s : Scanner) (token : Token) : Scanner := { s with tokens := token :: s.tokens }

def insert (s : Scanner) (position : Nat) (token : Token) : Scanner :=
  { s with tokens := s.tokens.insertIdx (s.tokens.length - position) token }

/-- The least column that belongs to the innermost block. -/
def indent (s : Scanner) : Nat := s.indents.head?.elim 0 (· + 1)

def roll (s : Scanner) (column position : Nat) (token : Token) : Scanner :=
  if s.inFlow ∨ s.indents.head?.any (column ≤ ·) then s
  else { s.insert position token with indents := column :: s.indents }

def unroll (s : Scanner) (column : Nat) : Scanner :=
  if s.inFlow then s
  else
    let closed := s.indents.takeWhile (column < ·)
    { s with
      indents := s.indents.drop closed.length
      tokens := List.replicate closed.length .blockEnd ++ s.tokens }

def unrollAll (s : Scanner) : Scanner :=
  if s.inFlow then s
  else { s with indents := [], tokens := List.replicate s.indents.length .blockEnd ++ s.tokens }

/-- Keys are on one line and shorter than this. -/
def maxKeyLength : Nat := 1024

def isStale (p : Place) (key : PossibleKey) : Bool :=
  key.line < p.line || key.index + maxKeyLength < p.index

/-- Forgets what can no longer be a key. -/
def dropStale? (s : Scanner) : Option Scanner :=
  if s.keys.any (·.any fun key => isStale s.place key && key.required) then none
  else some { s with keys := s.keys.map fun key? => key?.filter (!isStale s.place ·) }

def dropKey? (s : Scanner) : Option Scanner :=
  match s.keys with
  | some key :: outer => if key.required then none else some { s with keys := none :: outer }
  | _ => some s

def saveKey? (s : Scanner) : Option Scanner :=
  if s.keyAllowed then do
    let required := !s.inFlow && s.indents.head? == some s.place.column
    let key : PossibleKey :=
      ⟨required, s.tokens.length, s.place.line, s.place.column, s.place.index⟩
    let s ← s.dropKey?
    return { s with keys := some key :: s.keys.drop 1 }
  else some s

def skip (s : Scanner) (n : Nat) : Scanner := { s with place := s.place.skip n }

/-- Goes to the next token: past blanks, comments and line breaks. A line of a block
can begin with a key. -/
def toNext (s : Scanner) : Scanner :=
  let tabs := s.inFlow || !s.keyAllowed
  let blank := s.place.skipWhile fun c => c == ' ' || (tabs && c == '\t')
  let bare := if blank.rest.head? = some '#' then blank.skipWhile (!isBreak ·) else blank
  if bare.atBreak then
    let next := { s with place := bare.lineBreak.2, keyAllowed := s.keyAllowed || !s.inFlow }
    if _ : next.place.rest.length < s.place.rest.length then toNext next else next
  else { s with place := bare }
termination_by s.place.rest.length

def isNameChar (c : Char) : Bool :=
  ('a' ≤ c && c ≤ 'z') || ('A' ≤ c && c ≤ 'Z') || ('0' ≤ c && c ≤ '9') || c == '_' || c == '-'

def readName? (s : Scanner) : Option (String × Scanner) :=
  let rest := s.place.rest.drop 1
  let name := rest.takeWhile isNameChar
  let next := (rest.drop name.length).head?
  let ends (c : Char) : Bool := isBlankOrBreak c || "?:,]\x7d%@\x60".toList.contains c
  if !name.isEmpty && next.all ends then
    some (String.ofList name, s.skip (name.length + 1))
  else none

def isTagChar (verbatim : Bool) (c : Char) : Bool :=
  isNameChar c || ";/?:@&=+$.!~*'()%".toList.contains c ||
    (verbatim && (c == ',' || c == '[' || c == ']'))

/-- The bytes that percent escapes give, and the text after them. -/
def escapedBytes (s : List Char) : Option (List UInt8 × List Char) :=
  match s with
  | '%' :: a :: b :: rest => do
    let high ← Scalar.hexValue? a
    let low ← Scalar.hexValue? b
    let (bytes, after) ← escapedBytes rest
    return (UInt8.ofNat (16 * high + low) :: bytes, after)
  | '%' :: _ => none
  | rest => some ([], rest)

/-- The text of a tag with its percent escapes resolved, in at most `fuel` steps. -/
def unescapeTag (fuel : Nat) (s : List Char) : Option (List Char) :=
  match fuel, s with
  | _, [] => some []
  | 0, _ => none
  | fuel + 1, '%' :: rest => do
    let (bytes, after) ← escapedBytes ('%' :: rest)
    let text ← String.fromUTF8? ⟨bytes.toArray⟩
    let more ← unescapeTag fuel after
    return text.toList ++ more
  | fuel + 1, c :: rest => (unescapeTag fuel rest).map (c :: ·)

/-- Reads the text of a tag or of a tag's beginning. It is empty only after a `lead`. -/
def readTagText? (verbatim lead : Bool) (s : List Char) : Option (List Char × Nat) :=
  let text := s.takeWhile (isTagChar verbatim)
  if text.isEmpty && !lead then none
  else (unescapeTag text.length text).map (·, text.length)

/-- Reads a tag: its handle, its suffix and its width. -/
def readTag? (s : List Char) : Option (String × String × Nat) :=
  match s with
  | '!' :: '<' :: rest => do
    let (text, width) ← readTagText? true false rest
    if rest[width]? = some '>' then return ("", String.ofList text, width + 3) else none
  | '!' :: rest =>
    let name := rest.takeWhile isNameChar
    let after := rest.drop name.length
    match after with
    | '!' :: suffix => do
      let (text, width) ← readTagText? false false suffix
      return (String.ofList ('!' :: name ++ ['!']), String.ofList text, name.length + width + 2)
    | _ => do
      let (text, width) ← readTagText? false true after
      let suffix := String.ofList (name ++ text)
      if suffix.isEmpty then return ("", "!", 1)
      else return ("!", suffix, 1 + name.length + width)
  | _ => none

/-- Reads a directive after its `%`, and the place after its line. -/
def readDirective? (p : Place) : Option (Token × Place) :=
  let name := p.rest.takeWhile isNameChar
  let q := (p.skip name.length).skipWhile isBlank
  match String.ofList name with
  | "YAML" => do
    let major := q.rest.takeWhile Char.isDigit
    let minor := (q.rest.drop (major.length + 1)).takeWhile Char.isDigit
    if major.isEmpty ∨ minor.isEmpty ∨ 9 < major.length ∨ 9 < minor.length ∨
        q.rest[major.length]? ≠ some '.' then none
    let number (digits : List Char) : Nat := digits.foldl (fun n c => 10 * n + (c.toNat - 48)) 0
    let after ← (q.skip (major.length + 1 + minor.length)).skipLineEnd?
    return (.version (number major) (number minor), after)
  | "TAG" => do
    let word := q.rest.takeWhile (!isBlankOrBreak ·)
    let isHandle := word == ['!'] ||
      (2 ≤ word.length && word.head? == some '!' && word.getLast? == some '!' &&
        (word.drop 1).dropLast.all isNameChar)
    let r := (q.skip word.length).skipWhile isBlank
    let (text, width) ← readTagText? true false r.rest
    let after := r.skip width
    if isHandle && endsWord after.rest then
      return (.tagDirective (String.ofList word) (String.ofList text), ← after.skipLineEnd?)
    else none
  | _ => none

def endDocument? (s : Scanner) : Option Scanner := do
  let s ← s.unrollAll.dropKey?
  return { s with keyAllowed := false }

def openFlow? (s : Scanner) (token : Token) : Option Scanner := do
  let s ← s.saveKey?
  return { (s.put token).skip 1 with keys := none :: s.keys, keyAllowed := true }

def closeFlow? (s : Scanner) (token : Token) : Option Scanner := do
  let s ← s.dropKey?
  let keys := if s.inFlow then s.keys.drop 1 else s.keys
  return { (s.put token).skip 1 with keys, keyAllowed := false }

/-- Reads the mark before an entry or a complex key of a block. -/
def blockMark? (s : Scanner) (opening token : Token) (keyAllowed : Bool) : Option Scanner := do
  if !s.inFlow && !s.keyAllowed then none
  let s ← (s.roll s.place.column s.tokens.length opening).dropKey?
  return { (s.put token).skip 1 with keyAllowed }

def valueMark? (s : Scanner) : Option Scanner :=
  match s.keys with
  | some key :: outer =>
    let s := (s.insert key.position .key).roll key.column key.position .blockMapping
    some { (s.put .value).skip 1 with keys := none :: outer, keyAllowed := false }
  | _ =>
    if !s.inFlow && !s.keyAllowed then none
    else
      let s := s.roll s.place.column s.tokens.length .blockMapping
      some { (s.put .value).skip 1 with keyAllowed := !s.inFlow }

/-- Adds a token that may be a key, or part of one. -/
def keyToken? (s : Scanner) (read : Scanner → Option (Token × Place)) : Option Scanner := do
  let s ← s.saveKey?
  let (token, after) ← read s
  return { s.put token with place := after, keyAllowed := false }

def plain? (s : Scanner) : Option Scanner := do
  let s ← s.saveKey?
  let (text, broken, after) ← Scalar.readPlain s.inFlow s.indent s.place
  return { s.put (.scalar .plain (String.ofList text)) with place := after, keyAllowed := broken }

def quoted? (s : Scanner) (single : Bool) : Option Scanner :=
  s.keyToken? fun s => do
    let (text, after) ← Scalar.readQuoted single (s.place.skip 1)
    return (.scalar (if single then .single else .double) (String.ofList text), after)

def block? (s : Scanner) (folded : Bool) : Option Scanner := do
  let s ← s.dropKey?
  let (text, after) ← Scalar.readBlock folded s.indents.head? (s.place.skip 1)
  let token := Token.scalar (if folded then .folded else .literal) (String.ofList text)
  return { s.put token with place := after, keyAllowed := true }

/-- Characters that begin no plain scalar, unless it is one of `-?:` before a word. -/
def isIndicator (c : Char) : Bool := "-?:,[]\x7b\x7d#&*!|>'\"%@\x60".toList.contains c

def next? (s : Scanner) (c : Char) (rest : List Char) : Option Scanner :=
  let p := s.place
  if p.column = 0 ∧ c = '%' then do
    let s ← s.endDocument?
    let (token, after) ← readDirective? (s.place.skip 1)
    return { s.put token with place := after }
  else if p.atMark '-' then do return ((← s.endDocument?).put .documentStart).skip 3
  else if p.atMark '.' then do return ((← s.endDocument?).put .documentEnd).skip 3
  else
    let ends := endsWord rest
    match c with
    | '[' => s.openFlow? .sequenceStart
    | '\x7b' => s.openFlow? .mappingStart
    | ']' => s.closeFlow? .sequenceEnd
    | '\x7d' => s.closeFlow? .mappingEnd
    | ',' => do return { ((← s.dropKey?).put .flowEntry).skip 1 with keyAllowed := true }
    | '*' => s.keyToken? fun s => s.readName?.map fun (name, s) => (.alias name, s.place)
    | '&' => s.keyToken? fun s => s.readName?.map fun (name, s) => (.anchor name, s.place)
    | '!' => s.keyToken? fun s => do
      let (handle, suffix, width) ← readTag? s.place.rest
      let after := s.place.skip width
      if endsWord after.rest || (s.inFlow && after.rest.head? == some ',') then
        return (.tag handle suffix, after)
      else none
    | '\x27' => s.quoted? true
    | '\x22' => s.quoted? false
    | _ =>
      if c = '-' ∧ ends then s.blockMark? .blockSequence .blockEntry true
      else if c = '?' ∧ (s.inFlow ∨ ends) then s.blockMark? .blockMapping .key (!s.inFlow)
      else if c = ':' ∧ (s.inFlow ∨ ends) then s.valueMark?
      else if c = '|' ∧ !s.inFlow then s.block? false
      else if c = '>' ∧ !s.inFlow then s.block? true
      else if !isIndicator c && !isBlankOrBreak c || (c == '-' && !rest.head?.any isBlank) ||
          (!s.inFlow && (c == '?' || c == ':') && !ends) then s.plain?
      else none

def run? (s : Scanner) : Option Scanner := do
  let s₁ ← s.toNext.dropStale?
  let s₂ := s₁.unroll s₁.place.column
  match s₂.place.rest with
  | [] => s₂.endDocument?
  | c :: rest =>
    let next ← s₂.next? c rest
    if _ : next.place.rest.length < s.place.rest.length then run? next else none
termination_by s.place.rest.length

end Scanner

/-- The tokens of a text. A text with characters that YAML does not allow has none. -/
def Token.readAll? (text : List Char) : Option (List Token) :=
  let text := if text.head? = some '\uFEFF' then text.drop 1 else text
  if text.all isAllowed then (Scanner.start text).run?.map (·.tokens.reverse) else none

end DocSite.Yaml
