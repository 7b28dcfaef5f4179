import DocSite.Template.Rendered
import DocSite.Template.Tag
import DocSite.Text.Blank
/-! What a text is read as: pieces of plain text and the spans that `[[` opens.
Reading looks at the text alone, never at what its tags stand for. -/
namespace DocSite.Template

mutual

/-- What an opening `[[` turns out to be. `source` is all the text that belongs to it. -/
inductive Span where
  /-- No tag, but the tags inside its parameter values have been read. -/
  | literal (source : List Char) (inner : List Span)
  | tag (deferred : Bool) (kind : TagKind) (name : String) (arguments : List Argument)
      (source : List Char)

/-- A parameter as written. A name may be given more than once. -/
inductive Argument where
  | mk (name : String) (value : List Piece)

inductive Piece where
  | text (chars : List Char)
  | span (s : Span)

end

deriving instance Repr, Inhabited for Span, Argument, Piece

namespace Span

/-- Spans nested in parameter values are followed less than this deep. -/
def maxNesting : Nat := 16

def nonBreakingSpace : List Char := ['&', 'n', 'b', 's', 'p', ';']

def ampersand : List Char := ['&', 'a', 'm', 'p', ';']

/-- Reads the text after `[[` and says how many characters belong to the span. -/
abbrev Reader := List Char → Span × Nat

/-- The pieces of a parameter value, and whether its closing backtick was found. -/
structure ValueReading where
  pieces : List Piece
  closed : Bool
  width : Nat

def ValueReading.after (piece : Piece) (width : Nat) (r : ValueReading) : ValueReading :=
  { r with pieces := piece :: r.pieces, width := width + r.width }

/-- The characters that stand for themselves wherever they are in a value. -/
def isPlain (c : Char) : Bool := c != '\x60' && c != '[' && c != '&'

/-- Reads a parameter value after its opening backtick. Without a reader for
nested spans `[[` is plain text. -/
def readValue (nested : Option Reader) (s : List Char) : ValueReading :=
  match s with
  | [] => ⟨[], false, 0⟩
  | c :: rest =>
    if c = '\x60' then ⟨[], true, 1⟩
    else if c = '[' ∧ rest.head? = some '[' then
      match nested with
      | none => (readValue nested (rest.drop 1)).after (.text ['[', '[']) 2
      | some read =>
        let (span, width) := read (rest.drop 1)
        (readValue nested ((rest.drop 1).drop width)).after (.span span) (2 + width)
    else if nonBreakingSpace.isPrefixOf (c :: rest) then
      (readValue nested (rest.drop 5)).after (.text [' ']) 6
    else if ampersand.isPrefixOf (c :: rest) then
      (readValue nested (rest.drop 4)).after (.text ['&']) 5
    else
      let run := rest.takeWhile isPlain
      (readValue nested (rest.drop run.length)).after (.text (c :: run)) (1 + run.length)
termination_by s.length
decreasing_by all_goals simp only [List.length_drop, List.length_cons]; omega

def spansOf (pieces : List Piece) : List Span :=
  pieces.filterMap fun
    | .span s => some s
    | .text _ => none

/-- The parameters of a tag up to its `]]`. `given` holds the spans of all
values read, for the case that no `]]` follows. -/
structure ArgumentsReading where
  arguments : List Argument
  given : List Span
  closed : Bool
  width : Nat

def ArgumentsReading.skip (width : Nat) (r : ArgumentsReading) : ArgumentsReading :=
  { r with width := width + r.width }

/-- How many characters lead up to and through the first `]]`. -/
def closeWidth? : List Char → Option Nat
  | [] => none
  | c :: rest =>
    if c = ']' ∧ rest.head? = some ']' then some 2 else (closeWidth? rest).map (· + 1)

/-- Reads what follows the name of a tag: blanks and parameters up to `]]`. A
placeholder ignores everything between an `&` and the next `]]`. -/
def readArguments (kind : TagKind) (value : List Char → ValueReading) (s : List Char) :
    ArgumentsReading :=
  match s with
  | [] => ⟨[], [], false, 0⟩
  | c :: rest =>
    if c = ']' ∧ rest.head? = some ']' then ⟨[], [], true, 2⟩
    else if nonBreakingSpace.isPrefixOf (c :: rest) then
      (readArguments kind value (rest.drop 5)).skip 6
    else if c = '&' then
      if kind = .placeholder then
        match closeWidth? rest with
        | some width => ⟨[], [], true, 1 + width⟩
        | none => ⟨[], [], false, 1 + rest.length⟩
      else
        let lead := if ampersand.isPrefixOf (c :: rest) then 4 else 0
        let name := (rest.drop lead).takeWhile isParamChar
        let afterName := rest.drop (lead + name.length)
        if name.isEmpty ∨ ¬ ['=', '\x60'].isPrefixOf afterName then
          ⟨[], [], false, 1 + lead + name.length⟩
        else
          let reading := value (afterName.drop 2)
          let width := lead + name.length + 2 + reading.width
          if reading.closed then
            let more := readArguments kind value (rest.drop width)
            ⟨.mk (String.ofList name) reading.pieces :: more.arguments,
              spansOf reading.pieces ++ more.given, more.closed, 1 + width + more.width⟩
          else ⟨[], spansOf reading.pieces, false, 1 + width⟩
    else if Text.isBlank c then (readArguments kind value rest).skip 1
    else ⟨[], [], false, 1⟩
termination_by s.length
decreasing_by all_goals simp only [List.length_drop, List.length_cons]; omega

def endsName (c : Char) : Bool := c == ']' || c == '&' || Text.isBlank c

def readWith (value : List Char → ValueReading) (s : List Char) : Span × Nat :=
  let deferred := s.head? == some '!'
  let markWidth := if deferred then 1 else 0
  let afterMark := s.drop markWidth
  let sigil? := afterMark.head?.bind TagKind.ofSigil?
  let kind := sigil?.getD .snippet
  let sigilWidth := if sigil?.isSome then 1 else 0
  let name := (afterMark.drop sigilWidth).takeWhile isNameChar
  let nameEnd := markWidth + sigilWidth + name.length
  let source (width : Nat) := '[' :: '[' :: s.take width
  if name.isEmpty ∨ ¬ (s.drop nameEnd).head?.any endsName then
    (.literal (source nameEnd) [], nameEnd)
  else
    let reading := readArguments kind value (s.drop nameEnd)
    let width := nameEnd + reading.width
    if reading.closed then
      (.tag deferred kind (String.ofList name) reading.arguments (source width), width)
    else (.literal (source width) reading.given, width)

/-- Reads a span in whose values spans may nest `depth` levels. -/
def reader : (depth : Nat) → Reader
  | 0 => readWith (readValue none)
  | depth + 1 => readWith (readValue (some (reader depth)))

/-- Reads the text after a `[[` that stands outside all values. -/
def read : Reader := reader (maxNesting - 1)

end Span

namespace Piece

/-- Reads a template: every `[[` outside a span opens a span. -/
def readAll (s : List Char) : List Piece :=
  match s with
  | [] => []
  | c :: rest =>
    if c = '[' ∧ rest.head? = some '[' then
      let (opened, width) := Span.read (rest.drop 1)
      .span opened :: readAll ((rest.drop 1).drop width)
    else
      let run := rest.takeWhile (· != '[')
      .text (c :: run) :: readAll (rest.drop run.length)
termination_by s.length
decreasing_by all_goals simp only [List.length_drop, List.length_cons]; omega

end Piece
end DocSite.Template
