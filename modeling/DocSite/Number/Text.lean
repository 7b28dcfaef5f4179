import DocSite.Number.Shortest
/-! Finite numbers as text with the fewest digits, with a point or an exponent. -/
namespace DocSite.Number

/-- Where a number is written with a point: between these places of its first digit. -/
structure Positional where
  least : Int
  greatest : Int

/-- A number has a point from 0.00001 up to sixteen digits before it. -/
def positional : Positional := ⟨-4, 16⟩

def digitsText (digits : List Char) (point : Int) : List Char :=
  if point ≤ 0 then ['0', '.'] ++ List.replicate (-point).toNat '0' ++ digits
  else if digits.length ≤ point then
    digits ++ List.replicate (point.toNat - digits.length) '0' ++ ['.', '0']
  else digits.take point.toNat ++ '.' :: digits.drop point.toNat

def exponentText (digits : List Char) (point : Int) : List Char :=
  let fraction := match digits.drop 1 with
    | [] => []
    | more => '.' :: more
  digits.take 1 ++ fraction ++ 'e' :: (toString (point - 1)).toList

def Binary64.text (b : Binary64) : String :=
  let magnitude :=
    if b.units = 0 then ['0', '.', '0']
    else
      let (n, k) := Shortest.digits b.units
      let digits := Nat.toDigits 10 n
      let point := k + digits.length
      if positional.least ≤ point ∧ point ≤ positional.greatest then digitsText digits point
      else exponentText digits point
  String.ofList (if b.negative then '-' :: magnitude else magnitude)

end DocSite.Number
