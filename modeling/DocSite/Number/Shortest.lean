import DocSite.Number.Binary64
/-! The fewest decimal digits that read back as the same binary64 number, and
of those the nearest to it. -/
namespace DocSite.Number.Shortest

/-- The numbers that round to one finite number, in quarters of a unit. -/
structure Interval where
  low : Nat
  middle : Nat
  high : Nat
  /-- Whether the two ends belong to it. -/
  closed : Bool

def Interval.of (units : Nat) : Interval :=
  let shift := Binary64.coarseness units
  let step := Nat.pow 2 shift
  let below := if shift > 0 && units == Nat.pow 2 52 * step then step else 2 * step
  ⟨4 * units - below, 4 * units, 4 * units + 2 * step, units / step % 2 == 0⟩

/-- The two sides of a comparison with `n * 10^k`: `n` times the first, a number
of quarter units times the second. -/
def scales (k : Int) : Nat × Nat := (Nat.pow 10 k.toNat * Nat.pow 2 1076, Nat.pow 10 (-k).toNat)

def Interval.contains (i : Interval) (n : Nat) (k : Int) : Bool :=
  let (a, b) := scales k
  if i.closed then i.low * b ≤ n * a && n * a ≤ i.high * b
  else i.low * b < n * a && n * a < i.high * b

/-- The greatest `n` for which `n * 10^k` is at most the middle. -/
def Interval.floor (i : Interval) (k : Int) : Nat :=
  let (a, b) := scales k
  i.middle * b / a

def Interval.onGrid? (i : Interval) (k : Int) : Option Nat :=
  let n := i.floor k
  match i.contains n k && n != 0, i.contains (n + 1) k with
  | true, false => some n
  | false, true => some (n + 1)
  | true, true =>
    let (a, b) := scales k
    if 2 * (i.middle * b) ≤ (2 * n + 1) * a then some n else some (n + 1)
  | false, false => none

def search (i : Interval) : (fuel : Nat) → (k : Int) → Nat × Int
  | 0, k => (i.floor k, k)
  | fuel + 1, k =>
    match i.onGrid? k with
    | some n => (n, k)
    | none => search i fuel (k - 1)

def dropZeros : (fuel : Nat) → Nat × Int → Nat × Int
  | 0, p => p
  | fuel + 1, (n, k) => if n ≠ 0 ∧ n % 10 = 0 then dropZeros fuel (n / 10, k + 1) else (n, k)

/-- Digits `n` and exponent `k` for a positive number of units: `n * 10^k` reads back. -/
def digits (units : Nat) : Nat × Int :=
  let i := Interval.of units
  let top : Int := ((Nat.log2 units : Int) - 1074) * 30103 / 100000 + 2
  dropZeros 20 (search i 24 top)

end DocSite.Number.Shortest
