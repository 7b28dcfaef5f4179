import DocSite.Number.Integer
/-! Strings, comments and line ends of TOML. Each reader takes the text after what
opens the thing and returns the text after it. -/
namespace DocSite.Toml

def isSpace (c : Char) : Bool := c == ' ' || c == '\t'

/-- Characters that comments and strings may hold. -/
def isText (c : Char) : Bool :=
  c == '\t' || (0x20 ≤ c.toNat && c.toNat ≤ 0x7E) || 0x80 ≤ c.toNat

def skipSpace (s : List Char) : List Char := s.dropWhile isSpace

/-- The text after a line feed, or a carriage return and a line feed. -/
def newline? (s : List Char) : Option (List Char) :=
  match s with
  | '\n' :: rest => some rest
  | '\r' :: '\n' :: rest => some rest
  | _ => none

def lineEnd? (s : List Char) : Option (List Char) := if s.isEmpty then some [] else newline? s

def skipComment (s : List Char) : List Char :=
  match s with
  | '#' :: rest => rest.dropWhile isText
  | _ => s

/-- The text after the rest of a line, on which only blanks and a comment may stand. -/
def restOfLine? (s : List Char) : Option (List Char) := lineEnd? (skipComment (skipSpace s))

def skipLines (s : List Char) : List Char :=
  let next := skipSpace s
  match newline? (skipComment next) with
  | some rest => if _ : rest.length < s.length then skipLines rest else next
  | none => next
termination_by s.length

/-- The character with a code point of so many hexadecimal digits. -/
def codePoint? (width : Nat) (s : List Char) : Option (Char × List Char) := do
  let digits := s.take width
  if digits.length ≠ width then none
  let n ← Number.natural? 16 digits
  if n.isValidChar then return (Char.ofNat n, s.drop width) else none

def readEscape? (s : List Char) : Option (Char × List Char) :=
  match s with
  | 'b' :: rest => some ('\x08', rest)
  | 't' :: rest => some ('\t', rest)
  | 'n' :: rest => some ('\n', rest)
  | 'f' :: rest => some ('\x0c', rest)
  | 'r' :: rest => some ('\r', rest)
  | '\x22' :: rest => some ('\x22', rest)
  | '\\' :: rest => some ('\\', rest)
  | 'u' :: rest => codePoint? 4 rest
  | 'U' :: rest => codePoint? 8 rest
  | _ => none

/-- Reads a string of one line up to its closing quote. -/
def readBasic? (s : List Char) : Option (List Char × List Char) :=
  match s with
  | [] => none
  | '\x22' :: rest => some ([], rest)
  | '\\' :: rest =>
    match readEscape? rest with
    | some (c, after) =>
      if _ : after.length ≤ rest.length then
        (readBasic? after).map fun (text, last) => (c :: text, last)
      else none
    | none => none
  | c :: rest =>
    if isText c then (readBasic? rest).map fun (text, last) => (c :: text, last) else none
termination_by s.length

def readLiteral? (s : List Char) : Option (List Char × List Char) :=
  let text := s.takeWhile fun c => isText c && c != '\x27'
  match s.drop text.length with
  | '\x27' :: rest => some (text, rest)
  | _ => none

def skipBlanks (s : List Char) : List Char :=
  match s with
  | '\r' :: '\n' :: rest => skipBlanks rest
  | c :: rest => if isSpace c || c == '\n' then skipBlanks rest else c :: rest
  | [] => []

/-- The text after a backslash that joins lines: past all blanks and line ends. -/
def joinLines? (s : List Char) : Option (List Char) := (newline? (skipSpace s)).map skipBlanks

/-- Reads a string of several lines up to three quotes. One or two more may stand
before those that close it. -/
def readLines? (escapes : Bool) (quote : Char) (s : List Char) : Option (List Char × List Char) :=
  match s with
  | [] => none
  | c :: rest =>
    if c = quote then
      let marks := (s.takeWhile (· == quote)).length
      if 3 ≤ marks then
        let width := min marks 5
        some (List.replicate (width - 3) quote, s.drop width)
      else (readLines? escapes quote rest).map fun (text, last) => (c :: text, last)
    else if c = '\\' ∧ escapes then
      match joinLines? rest with
      | some after =>
        if _ : after.length ≤ rest.length then readLines? escapes quote after else none
      | none =>
        match readEscape? rest with
        | some (d, after) =>
          if _ : after.length ≤ rest.length then
            (readLines? escapes quote after).map fun (text, last) => (d :: text, last)
          else none
        | none => none
    else
      match newline? s with
      | some after =>
        if _ : after.length ≤ rest.length then
          (readLines? escapes quote after).map fun (text, last) => ('\n' :: text, last)
        else none
      | none =>
        if isText c then (readLines? escapes quote rest).map fun (text, last) => (c :: text, last)
        else none
termination_by s.length

/-- Reads a string with its quotes. Only a value may have several lines. -/
def readString? (several : Bool) (s : List Char) : Option (String × List Char) :=
  let lines (escapes : Bool) (quote : Char) (s : List Char) : Option (List Char × List Char) :=
    readLines? escapes quote ((newline? s).getD s)
  let found := match s with
    | '\x22' :: '\x22' :: '\x22' :: rest =>
      if several then lines true '\x22' rest else readBasic? ('\x22' :: '\x22' :: rest)
    | '\x27' :: '\x27' :: '\x27' :: rest =>
      if several then lines false '\x27' rest else readLiteral? ('\x27' :: '\x27' :: rest)
    | '\x22' :: rest => readBasic? rest
    | '\x27' :: rest => readLiteral? rest
    | _ => none
  found.map fun (text, rest) => (String.ofList text, rest)

end DocSite.Toml
