import DocSite.Number.Integer
/-! Dates and times of TOML, alone or together, with or without an offset. -/
namespace DocSite.Toml

structure Date where
  year : Nat
  month : Nat
  day : Nat
deriving DecidableEq, Repr

structure Time where
  hour : Nat
  minute : Nat
  second : Nat
  nanosecond : Nat
deriving DecidableEq, Repr

inductive Offset where
  | utc
  | minutes (n : Int)
deriving DecidableEq, Repr

inductive DateTime where
  | date (date : Date)
  | time (time : Time)
  | both (date : Date) (time : Time) (offset? : Option Offset)
deriving DecidableEq, Repr

namespace DateTime

def padded (width n : Nat) : String :=
  let digits := toString n
  String.ofList (List.replicate (width - digits.length) '0') ++ digits

def dateText (d : Date) : String := s!"{padded 4 d.year}-{padded 2 d.month}-{padded 2 d.day}"

/-- The fraction of a second without zeros at its end. -/
def fractionText (nanosecond : Nat) : String :=
  if nanosecond = 0 then ""
  else "." ++ String.ofList ((padded 9 nanosecond).toList.reverse.dropWhile (· == '0')).reverse

def timeText (t : Time) : String :=
  s!"{padded 2 t.hour}:{padded 2 t.minute}:{padded 2 t.second}{fractionText t.nanosecond}"

def offsetText : Offset → String
  | .utc => "Z"
  | .minutes n =>
    let sign := if n < 0 then "-" else "+"
    s!"{sign}{padded 2 (n.natAbs / 60)}:{padded 2 (n.natAbs % 60)}"

def text : DateTime → String
  | .date d => dateText d
  | .time t => timeText t
  | .both d t none => s!"{dateText d}T{timeText t}"
  | .both d t (some offset) => s!"{dateText d}T{timeText t}{offsetText offset}"

/-- Exactly `width` digits that make a number from `least` to `greatest`. -/
def number? (width least greatest : Nat) (s : List Char) : Option (Nat × List Char) := do
  let digits := s.take width
  if digits.length ≠ width ∨ !digits.all Char.isDigit then none
  let n ← Number.natural? 10 digits
  if least ≤ n ∧ n ≤ greatest then return (n, s.drop width) else none

def mark? (c : Char) (s : List Char) : Option (List Char) :=
  match s with
  | d :: rest => if d = c then some rest else none
  | [] => none

def isLeapYear (year : Nat) : Bool := year % 4 == 0 && (year % 100 != 0 || year % 400 == 0)

def daysIn (year month : Nat) : Nat :=
  if month = 2 then if isLeapYear year then 29 else 28
  else if month = 4 ∨ month = 6 ∨ month = 9 ∨ month = 11 then 30
  else 31

def readDate? (s : List Char) : Option (Date × List Char) := do
  let (year, s) ← number? 4 0 9999 s
  let (month, s) ← number? 2 1 12 (← mark? '-' s)
  let (day, s) ← number? 2 1 (daysIn year month) (← mark? '-' s)
  return (⟨year, month, day⟩, s)

/-- The digits after the point of a second, cut after the ninth. -/
def readFraction? (s : List Char) : Option (Nat × List Char) :=
  let digits := s.takeWhile Char.isDigit
  let kept := digits.take 9
  (Number.natural? 10 kept).map fun n => (n * Nat.pow 10 (9 - kept.length), s.drop digits.length)

def readTime? (s : List Char) : Option (Time × List Char) := do
  let (hour, s) ← number? 2 0 23 s
  let (minute, s) ← number? 2 0 59 (← mark? ':' s)
  let (second, s) ← number? 2 0 60 (← mark? ':' s)
  let (nanosecond, s) := match s with
    | '.' :: rest => (readFraction? rest).getD (0, s)
    | _ => (0, s)
  return (⟨hour, minute, second, nanosecond⟩, s)

def readOffset? (s : List Char) : Option (Offset × List Char) :=
  match s with
  | [] => none
  | c :: rest =>
    if c = 'Z' ∨ c = 'z' then some (.utc, rest)
    else if c = '+' ∨ c = '-' then do
      let (hours, rest) ← number? 2 0 23 rest
      let (minutes, rest) ← number? 2 0 59 (← mark? ':' rest)
      let n : Int := hours * 60 + minutes
      return (.minutes (if c = '-' then -n else n), rest)
    else none

/-- The time after a date, behind `T` or a space. -/
def readTimeAfterDate? (s : List Char) : Option (Time × List Char) :=
  match s with
  | c :: rest => if c = 'T' ∨ c = 't' ∨ c = ' ' then readTime? rest else none
  | [] => none

/-- Whether a text begins like a date or a time. It is then nothing else. -/
def begins (s : List Char) : Bool :=
  ((s.take 4).all Char.isDigit && s[4]? == some '-') ||
    ((s.take 2).all Char.isDigit && s[2]? == some ':')

def read? (s : List Char) : Option (DateTime × List Char) :=
  if s[2]? = some ':' then (readTime? s).map fun (t, rest) => (.time t, rest)
  else do
    let (d, rest) ← readDate? s
    match readTimeAfterDate? rest with
    | none => return (.date d, rest)
    | some (t, rest) =>
      match readOffset? rest with
      | some (o, rest) => return (.both d t (some o), rest)
      | none => return (.both d t none, rest)

end DateTime
end DocSite.Toml
