import DocSite.Markdown.EntityData
import DocSite.Text.Punctuation
/-! Character references such as `&amp;`, and backslashes that take the meaning
from the punctuation after them. -/
namespace DocSite.Markdown.Entity

def hexDigit? (c : Char) : Option Nat :=
  if '0' ≤ c ∧ c ≤ '9' then some (c.toNat - 48)
  else if 'a' ≤ c ∧ c ≤ 'f' then some (c.toNat - 87)
  else if 'A' ≤ c ∧ c ≤ 'F' then some (c.toNat - 55)
  else none

def number (base : Nat) (digits : List Char) : Nat :=
  digits.foldl (fun n c => base * n + (hexDigit? c).getD 0) 0

def table : List (String × List Char) :=
  EntityData.names.flatMap fun line => (line.splitOn ",").map fun entry =>
    match entry.splitOn " " with
    | name :: codes => (name, codes.map fun code => Char.ofNat (number 16 code.toList))
    | [] => ("", [])

def named? (name : List Char) : Option (List Char) :=
  (table.find? (·.1 == String.ofList name)).map (·.2)

/-- The character with a code point. Zero stands for U+FFFD. -/
def numbered? (n : Nat) : Option Char :=
  if n = 0 then some '\uFFFD' else if n.isValidChar then some (Char.ofNat n) else none

def isAlphanumeric (c : Char) : Bool :=
  ('a' ≤ c && c ≤ 'z') || ('A' ≤ c && c ≤ 'Z') || ('0' ≤ c && c ≤ '9')

/-- Digits of a numeric reference: at most `limit`, then a semicolon. -/
def digits? (base limit : Nat) (s : List Char) : Option (List Char × List Char) :=
  let isDigit := fun c => (hexDigit? c).any (· < base)
  let digits := (s.takeWhile isDigit).take limit
  if !digits.isEmpty ∧ s[digits.length]? = some ';' then
    (numbered? (number base digits)).map fun c => ([c], s.drop (digits.length + 1))
  else none

/-- Reads a reference after its `&`: what it stands for and the text that follows. -/
def read? (s : List Char) : Option (List Char × List Char) :=
  match s with
  | '#' :: 'x' :: rest => digits? 16 6 rest
  | '#' :: 'X' :: rest => digits? 16 6 rest
  | '#' :: rest => digits? 10 7 rest
  | _ =>
    let name := s.takeWhile isAlphanumeric
    if s[name.length]? = some ';' then
      (named? name).map (·, s.drop (name.length + 1))
    else none

def unescapeWithin (fuel : Nat) (s : List Char) : List Char :=
  match fuel, s with
  | 0, _ => s
  | _, [] => []
  | fuel + 1, '\\' :: c :: rest =>
    if Text.isAsciiPunctuation c then c :: unescapeWithin fuel rest
    else '\\' :: unescapeWithin fuel (c :: rest)
  | fuel + 1, '&' :: rest =>
    match read? rest with
    | some (meaning, after) => meaning ++ unescapeWithin fuel after
    | none => '&' :: unescapeWithin fuel rest
  | fuel + 1, c :: rest =>
    if c = '\r' then unescapeWithin fuel rest else c :: unescapeWithin fuel rest

def unescape (s : List Char) : List Char := unescapeWithin s.length s

end DocSite.Markdown.Entity
