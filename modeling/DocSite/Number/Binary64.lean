/-! Finite numbers of IEEE binary64 as whole multiples of the least of them,
2^-1074. Decimal text is rounded to the nearest such number, ties to even. -/
namespace DocSite.Number

/-- A finite binary64 number: `units` times 2^-1074, with a sign that zero has too. -/
structure Binary64 where
  negative : Bool
  units : Nat
  deriving Repr, DecidableEq, Inhabited

namespace Binary64

/-- A quotient rounded to the nearest whole number, ties to even. -/
def roundDiv (num den : Nat) : Nat :=
  let q := num / den
  let r := num % den
  if 2 * r > den || (2 * r == den && q % 2 == 1) then q + 1 else q

def coarseness (units : Nat) : Nat := Nat.log2 units - 52

def decimalLength (n : Nat) : Nat := (Nat.toDigits 10 n).length

/-- The units of `digits * 10^exponent`, if they are finite. -/
def unitsOfDecimal? (digits : Nat) (exponent : Int) : Option Nat :=
  if digits = 0 then some 0
  else
    let magnitude : Int := decimalLength digits + exponent
    if magnitude > 310 then none
    else if magnitude < -330 then some 0
    else
      let num := digits * Nat.pow 10 exponent.toNat * Nat.pow 2 1074
      let den := Nat.pow 10 (-exponent).toNat
      let shift := coarseness (num / den)
      let units := roundDiv num (den * Nat.pow 2 shift) * Nat.pow 2 shift
      if units < Nat.pow 2 2098 then some units else none

def value (b : Binary64) : Int := if b.negative then -(b.units : Int) else b.units

def bits (b : Binary64) : Nat :=
  let sign := if b.negative then Nat.pow 2 63 else 0
  if b.units < Nat.pow 2 53 then sign + b.units
  else
    let shift := coarseness b.units
    sign + shift * Nat.pow 2 52 + b.units / Nat.pow 2 shift

def digitValue (c : Char) : Nat := c.toNat - 48

def numberOf (cs : List Char) : Nat := cs.foldl (fun n c => n * 10 + digitValue c) 0

inductive Numeral where
  | finite (b : Binary64)
  /-- Too large for a finite number, or written as a word. -/
  | notFinite (negative : Bool)
  | notANumber
  deriving Repr, DecidableEq

/-- The bits of a number. Those of what is not a number are not fixed. -/
def Numeral.bits? : Numeral → Option Nat
  | .finite b => some b.bits
  | .notFinite negative => some ((if negative then Nat.pow 2 63 else 0) + 2047 * Nat.pow 2 52)
  | .notANumber => none

def splitSign : List Char → Bool × List Char
  | '-' :: rest => (true, rest)
  | '+' :: rest => (false, rest)
  | cs => (false, cs)

def exponent? : List Char → Option Int
  | [] => some 0
  | c :: rest =>
    if c = 'e' ∨ c = 'E' then
      let (negative, digits) := splitSign rest
      if digits.isEmpty || !digits.all Char.isDigit then none
      else some (if negative then -(numberOf digits : Int) else numberOf digits)
    else none

/-- Reads digits with an optional point and exponent, or one of the words
`inf`, `infinity` and `nan`. -/
def parse? (text : List Char) : Option Numeral :=
  let (negative, body) := splitSign text
  let word := String.ofList (body.map Char.toLower)
  if word = "inf" ∨ word = "infinity" then some (.notFinite negative)
  else if word = "nan" then some .notANumber
  else
    let whole := body.takeWhile Char.isDigit
    let afterWhole := body.drop whole.length
    let fraction := match afterWhole with
      | '.' :: rest => rest.takeWhile Char.isDigit
      | _ => []
    let afterFraction := match afterWhole with
      | '.' :: rest => rest.drop fraction.length
      | rest => rest
    if whole.isEmpty && fraction.isEmpty then none
    else do
      let exponent ← exponent? afterFraction
      match unitsOfDecimal? (numberOf (whole ++ fraction)) (exponent - fraction.length) with
      | some units => some (.finite ⟨negative, units⟩)
      | none => some (.notFinite negative)

def finite? (text : List Char) : Option Binary64 :=
  match parse? text with
  | some (.finite b) => some b
  | _ => none

end Binary64
end DocSite.Number
