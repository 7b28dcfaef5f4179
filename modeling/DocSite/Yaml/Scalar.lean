import DocSite.Yaml.Place
/-! The text of scalars: plain words, quoted text, and blocks of lines. Each
reader returns nothing where the text breaks a rule of its style. -/
namespace DocSite.Yaml

inductive Style where
  | plain | single | double | literal | folded
deriving DecidableEq, Repr

namespace Scalar

def isFlowMark (c : Char) : Bool := c == ',' || c == '[' || c == ']' || c == '\x7b' || c == '\x7d'

/-- Reads a word of a plain scalar. Inside brackets a colon before a mark is not allowed. -/
def readWord (inFlow : Bool) : List Char → Option (List Char)
  | [] => some []
  | c :: rest =>
    if isBlankOrBreak c then some []
    else if c = ':' ∧ inFlow ∧ rest.head?.any (fun d => isFlowMark d || d == '?') then none
    else if c = ':' ∧ endsWord rest then some []
    else if inFlow ∧ isFlowMark c then some []
    else (readWord inFlow rest).map (c :: ·)

/-- Reads a plain scalar, of which `text` has been read and `gap` follows. Also says
whether a line break follows it. -/
def readPlainFrom (inFlow : Bool) (indent : Nat) (text : List Char) (gap : Gap) (p : Place) :
    Option (List Char × Bool × Place) :=
  if p.atDocumentMark || p.rest.head? == some '#' then some (text, gap.broken, p)
  else
    match readWord inFlow p.rest with
    | none => none
    | some word =>
      let q := p.skip word.length
      let text := if word.isEmpty then text else text ++ gap.text ++ word
      if q.rest.head?.any isBlankOrBreak then
        match Gap.read indent (if word.isEmpty then gap else .none) q with
        | none => none
        | some (gap, after) =>
          if !inFlow ∧ after.column < indent then some (text, gap.broken, after)
          else if _ : after.rest.length < p.rest.length then
            readPlainFrom inFlow indent text gap after
          else some (text, gap.broken, after)
      else some (text, word.isEmpty && gap.broken, q)
termination_by p.rest.length

def readPlain (inFlow : Bool) (indent : Nat) (p : Place) : Option (List Char × Bool × Place) :=
  readPlainFrom inFlow indent [] .none p

def hexValue? (c : Char) : Option Nat :=
  if '0' ≤ c ∧ c ≤ '9' then some (c.toNat - 48)
  else if 'a' ≤ c ∧ c ≤ 'f' then some (c.toNat - 87)
  else if 'A' ≤ c ∧ c ≤ 'F' then some (c.toNat - 55)
  else none

def hexNumber? (s : List Char) : Option Nat :=
  s.foldl (fun n? c => do return 16 * (← n?) + (← hexValue? c)) (some 0)

def simpleEscape? (c : Char) : Option Char :=
  match c with
  | '0' => some '\x00'
  | 'a' => some '\x07'
  | 'b' => some '\x08'
  | 't' | '\t' => some '\t'
  | 'n' => some '\n'
  | 'v' => some '\x0b'
  | 'f' => some '\x0c'
  | 'r' => some '\r'
  | 'e' => some '\x1b'
  | ' ' | '\x22' | '/' | '\\' => some c
  | 'N' => some '\u0085'
  | '_' => some '\u00a0'
  | 'L' => some '\u2028'
  | 'P' => some '\u2029'
  | _ => none

def codeLength? (c : Char) : Option Nat :=
  match c with
  | 'x' => some 2
  | 'u' => some 4
  | 'U' => some 8
  | _ => none

/-- Reads an escape after its backslash: the character and the width. -/
def readEscape? (s : List Char) : Option (Char × Nat) :=
  match s with
  | [] => none
  | c :: rest =>
    match simpleEscape? c with
    | some d => some (d, 1)
    | none => do
      let length ← codeLength? c
      let digits := rest.take length
      let code ← hexNumber? digits
      if digits.length = length ∧ code.isValidChar then some (Char.ofNat code, length + 1) else none

inductive WordEnd where
  | quote
  | escapedBreak
  | gap

def readQuotedWord (single : Bool) (s : List Char) : Option (List Char × Nat × WordEnd) :=
  match s with
  | [] => some ([], 0, .gap)
  | c :: rest =>
    if isBlankOrBreak c then some ([], 0, .gap)
    else if single ∧ c = '\x27' ∧ rest.head? = some '\x27' then
      (readQuotedWord single (rest.drop 1)).map fun (text, width, ending) =>
        (c :: text, width + 2, ending)
    else if c = (if single then '\x27' else '\x22') then some ([], 0, .quote)
    else if !single ∧ c = '\\' then
      if rest.head?.any isBreak then some ([], 1, .escapedBreak)
      else
        match readEscape? rest with
        | some (d, width) =>
          (readQuotedWord single (rest.drop width)).map fun (text, more, ending) =>
            (d :: text, more + width + 1, ending)
        | none => none
    else
      (readQuotedWord single rest).map fun (text, width, ending) => (c :: text, width + 1, ending)
termination_by s.length
decreasing_by all_goals simp only [List.length_drop, List.length_cons]; omega

/-- Reads on in a quoted scalar, of which `text` has been read. -/
def readQuotedFrom (single : Bool) (text : List Char) (p : Place) : Option (List Char × Place) :=
  if p.atDocumentMark || p.rest.isEmpty then none
  else
    match readQuotedWord single p.rest with
    | none => none
    | some (word, width, ending) =>
      let q := p.skip width
      let go (gap : Gap) (from_ : Place) : Option (List Char × Place) :=
        match Gap.read 0 gap from_ with
        | none => none
        | some (gap, after) =>
          if after.rest.head? == some (if single then '\x27' else '\x22') then
            some (text ++ word ++ gap.text, after.skip 1)
          else if _ : after.rest.length < p.rest.length then
            readQuotedFrom single (text ++ word ++ gap.text) after
          else none
      match ending with
      | .quote => some (text ++ word, q.skip 1)
      | .escapedBreak => go .escaped q.lineBreak.2
      | .gap => go .none q
termination_by p.rest.length

def readQuoted (single : Bool) (p : Place) : Option (List Char × Place) :=
  readQuotedFrom single [] p

inductive Chomping where
  | strip | clip | keep
deriving DecidableEq

/-- The signs after the mark of a block scalar: how it ends, its indentation, and the width. -/
def readHeader? (s : List Char) : Option (Chomping × Option Nat × Nat) :=
  let chomping? : List Char → Option Chomping
    | '+' :: _ => some .keep
    | '-' :: _ => some .strip
    | _ => none
  let digit? : List Char → Option Nat
    | c :: _ => if c.isDigit then some (c.toNat - 48) else none
    | [] => none
  match chomping? s, digit? s with
  | some chomping, _ =>
    match digit? (s.drop 1) with
    | some 0 => none
    | some n => some (chomping, some n, 2)
    | none => some (chomping, none, 1)
  | none, some 0 => none
  | none, some n =>
    match chomping? (s.drop 1) with
    | some chomping => some (chomping, some n, 2)
    | none => some (.clip, some n, 1)
  | none, none => some (.clip, none, 0)

/-- Reads empty lines and the blanks before column `indent?` of the next line. Without
`indent?` all blanks are read; `widest` is the greatest column met. -/
def readBreaks (indent? : Option Nat) (breaks : List Char) (widest : Nat) (p : Place) :
    Option (List Char × Nat × Place) :=
  let blanks := (p.rest.takeWhile (· == ' ')).length
  let width := match indent? with
    | some indent => min blanks (indent - p.column)
    | none => blanks
  let q := p.skip width
  let widest := max widest q.column
  if indent?.all (q.column < ·) ∧ q.rest.head? = some '\t' then none
  else if h : q.atBreak = true then
    have : q.lineBreak.2.rest.length < p.rest.length := by
      have := Place.length_lineBreak_lt h
      have : q.rest.length ≤ p.rest.length := by simp [q, Place.skip]
      omega
    readBreaks indent? (breaks ++ q.lineBreak.1) widest q.lineBreak.2
  else some (breaks, widest, q)
termination_by p.rest.length

structure Block where
  text : List Char
  /-- The break after the last line. -/
  lineEnd : List Char
  /-- The empty lines after it. -/
  empty : List Char
  /-- Whether the last line began with a blank. -/
  afterBlank : Bool

/-- Adds the breaks before a line. Those between two unindented lines of a folded
block are joined. -/
def Block.join (b : Block) (folded blank : Bool) : List Char :=
  if folded ∧ b.lineEnd.head? = some '\n' ∧ !b.afterBlank ∧ !blank then
    b.text ++ (if b.empty.isEmpty then [' '] else []) ++ b.empty
  else b.text ++ b.lineEnd ++ b.empty

def readLines (folded : Bool) (indent : Nat) (b : Block) (p : Place) : Option (Block × Place) :=
  if p.column = indent ∧ !p.rest.isEmpty then
    let blank := p.rest.head?.any isBlank
    let line := p.rest.takeWhile (!isBreak ·)
    let q := p.skip line.length
    match readBreaks (some indent) [] 0 q.lineBreak.2 with
    | none => none
    | some (empty, _, after) =>
      let b : Block := ⟨b.join folded blank ++ line, q.lineBreak.1, empty, blank⟩
      if _ : after.rest.length < p.rest.length then readLines folded indent b after
      else some (b, after)
  else some (b, p)
termination_by p.rest.length

/-- Reads a block scalar after its mark. `parent` is the least column of its lines, unless
the header says how much further in they are. -/
def readBlock (folded : Bool) (outer? : Option Nat) (p : Place) : Option (List Char × Place) := do
  let (chomping, increment?, width) ← readHeader? p.rest
  let first ← (p.skip width).skipLineEnd?
  let least := outer?.elim 0 (· + 1)
  let given? := increment?.map fun n => outer?.elim n (· + n)
  let (breaks, widest, q) ← readBreaks given? [] 0 first
  let indent := given?.getD (max (max widest least) 1)
  let (b, after) ← readLines folded indent ⟨[], [], breaks, false⟩ q
  let tail := match chomping with
    | .strip => []
    | .clip => b.lineEnd
    | .keep => b.lineEnd ++ b.empty
  return (b.text ++ tail, after)

end Scalar
end DocSite.Yaml
