/-! Places in a YAML text, counted in lines, columns and characters, and the
blanks and line breaks between the words of a scalar. -/
namespace DocSite.Yaml

/-- The line breaks of YAML: the usual two and the separators of Unicode. -/
def isBreak (c : Char) : Bool :=
  c == '\n' || c == '\r' || c == '\u0085' || c == '\u2028' || c == '\u2029'

def isBlank (c : Char) : Bool := c == ' ' || c == '\t'

def isBlankOrBreak (c : Char) : Bool := isBlank c || isBreak c

def endsWord (s : List Char) : Bool := s.head?.all isBlankOrBreak

def isAllowed (c : Char) : Bool :=
  let n := c.toNat
  n == 0x09 || n == 0x0A || n == 0x0D || (0x20 ≤ n && n ≤ 0x7E) || n == 0x85 ||
    (0xA0 ≤ n && n ≤ 0xD7FF) || (0xE000 ≤ n && n ≤ 0xFFFD && n != 0xFEFF) || 0x10000 ≤ n

structure Place where
  rest : List Char
  line : Nat
  column : Nat
  index : Nat

namespace Place

def start (text : List Char) : Place := ⟨text, 0, 0, 0⟩

def skip (p : Place) (n : Nat) : Place :=
  { p with rest := p.rest.drop n, column := p.column + n, index := p.index + n }

def skipWhile (p : Place) (test : Char → Bool) : Place := p.skip (p.rest.takeWhile test).length

/-- The line break at a place, as the text of a scalar has it, and the place after it. -/
def lineBreak (p : Place) : List Char × Place :=
  match p.rest with
  | '\r' :: '\n' :: rest => (['\n'], ⟨rest, p.line + 1, 0, p.index + 2⟩)
  | c :: rest =>
    if isBreak c then
      let text := if c = '\u2028' ∨ c = '\u2029' then [c] else ['\n']
      (text, ⟨rest, p.line + 1, 0, p.index + 1⟩)
    else ([], p)
  | [] => ([], p)

def atBreak (p : Place) : Bool := p.rest.head?.any isBreak

theorem length_lineBreak_lt {p : Place} (h : p.atBreak = true) :
    p.lineBreak.2.rest.length < p.rest.length := by
  unfold atBreak at h
  unfold lineBreak
  split
  · simp only [*, List.length_cons]; omega
  · simp only [*, List.head?_cons, Option.any_some] at h ⊢
    simp [h]
  · simp [*] at h

/-- Whether a line of three hyphens or dots, which bounds a document, begins here. -/
def atDocumentMark (p : Place) : Bool :=
  p.column == 0 &&
    ((['-', '-', '-'].isPrefixOf p.rest || ['.', '.', '.'].isPrefixOf p.rest) &&
      endsWord (p.rest.drop 3))

def atMark (p : Place) (c : Char) : Bool :=
  p.column == 0 && [c, c, c].isPrefixOf p.rest && endsWord (p.rest.drop 3)

/-- The place after blanks and a comment, if they end the line. -/
def skipLineEnd? (p : Place) : Option Place :=
  let blank := p.skipWhile isBlank
  let bare := if blank.rest.head? = some '#' then blank.skipWhile (!isBreak ·) else blank
  if bare.rest.isEmpty then some bare
  else if bare.atBreak then some bare.lineBreak.2
  else none

end Place

/-- What stands between two words of a scalar that may run over lines. -/
structure Gap where
  /-- Blanks before the first line break. -/
  blanks : List Char
  broken : Bool
  first : List Char
  more : List Char

namespace Gap

def none : Gap := ⟨[], false, [], []⟩

def escaped : Gap := ⟨[], true, [], []⟩

/-- The gap as text: one line break is a space, further ones stay. -/
def text (g : Gap) : List Char :=
  if !g.broken then g.blanks
  else if g.first == ['\n'] then if g.more.isEmpty then [' '] else g.more
  else g.first ++ g.more

/-- Reads blanks and line breaks. A tab that stands before column `indent` of a
later line is not allowed. -/
def read (indent : Nat) (g : Gap) (p : Place) : Option (Gap × Place) :=
  match h : p.rest with
  | [] => some (g, p)
  | c :: _ =>
    if isBlank c then
      if g.broken ∧ c = '\t' ∧ p.column < indent then Option.none
      else read indent (if g.broken then g else { g with blanks := g.blanks ++ [c] }) (p.skip 1)
    else if hb : isBreak c = true then
      have : p.lineBreak.2.rest.length < p.rest.length :=
        Place.length_lineBreak_lt (by simp [Place.atBreak, h, hb])
      if g.broken then read indent { g with more := g.more ++ p.lineBreak.1 } p.lineBreak.2
      else read indent ⟨[], true, p.lineBreak.1, []⟩ p.lineBreak.2
    else some (g, p)
termination_by p.rest.length
decreasing_by all_goals simp_all [Place.skip]

end Gap
end DocSite.Yaml
