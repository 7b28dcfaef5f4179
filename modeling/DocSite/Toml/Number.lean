import DocSite.Number.Binary64
import DocSite.Number.Integer
/-! Numbers of TOML. Digits may be grouped by single underscores. -/
namespace DocSite.Toml

open Number

/-- Whether underscores stand alone and between digits. -/
def isGrouped (run : List Char) : Bool :=
  !run.isEmpty && run.head? != some '_' && run.getLast? != some '_' &&
    (run.zip (run.drop 1)).all fun (c, d) => c != '_' || d != '_'

/-- Reads digits: the digits themselves and the text after them. -/
def readDigits? (isDigit : Char → Bool) (s : List Char) : Option (List Char × List Char) :=
  let run := s.takeWhile fun c => isDigit c || c == '_'
  if isGrouped run then some (run.filter isDigit, s.drop run.length) else none

def readWhole? (s : List Char) : Option (List Char × List Char) :=
  match s with
  | '0' :: rest => some (['0'], rest)
  | _ => readDigits? Char.isDigit s

def readSign (s : List Char) : List Char × List Char :=
  match s with
  | '+' :: rest => ([], rest)
  | '-' :: rest => (['-'], rest)
  | _ => ([], s)

def readExponent? (s : List Char) : Option (List Char × List Char) :=
  match s with
  | c :: rest =>
    if c = 'e' ∨ c = 'E' then do
      let (sign, rest) := readSign rest
      let (digits, rest) ← readDigits? Char.isDigit rest
      return ('e' :: sign ++ digits, rest)
    else none
  | [] => none

def readDecimal? (s : List Char) : Option (List Char × List Char) := do
  let (sign, s) := readSign s
  let (whole, s) ← readWhole? s
  match s with
  | '.' :: rest =>
    let (fraction, rest) ← readDigits? Char.isDigit rest
    let (exponent, rest) := (readExponent? rest).getD ([], rest)
    return (sign ++ whole ++ '.' :: fraction ++ exponent, rest)
  | _ =>
    let (exponent, rest) ← readExponent? s
    return (sign ++ whole ++ exponent, rest)

def readWord? (s : List Char) : Option (Binary64.Numeral × List Char) :=
  let (sign, word) := readSign s
  if ['i', 'n', 'f'].isPrefixOf word then some (.notFinite (!sign.isEmpty), word.drop 3)
  else if ['n', 'a', 'n'].isPrefixOf word then some (.notANumber, word.drop 3)
  else none

/-- The value of a decimal. One that is too large above is none, one that is too large
below is minus infinity. -/
def decimalValue? (text : List Char) : Option Binary64.Numeral :=
  match Binary64.parse? text with
  | some (.notFinite false) => none
  | x? => x?

/-- Whole numbers are kept in 64 bits. -/
def fits (n : Int) : Bool := -0x8000000000000000 ≤ n && n < 0x8000000000000000

def readBased? (base : Nat) (s : List Char) : Option (Int × List Char) := do
  let (digits, rest) ← readDigits? (fun c => (digit? base c).isSome) s
  let n ← natural? base digits
  return (n, rest)

def readSigned? (s : List Char) : Option (Int × List Char) := do
  let (sign, s) := readSign s
  let (digits, rest) ← readWhole? s
  let n ← natural? 10 digits
  return (if sign.isEmpty then n else -n, rest)

def readInteger? (s : List Char) : Option (Int × List Char) :=
  let found := match s with
    | '0' :: 'x' :: rest => readBased? 16 rest
    | '0' :: 'o' :: rest => readBased? 8 rest
    | '0' :: 'b' :: rest => readBased? 2 rest
    | _ => readSigned? s
  found.filter (fits ·.1)

end DocSite.Toml
