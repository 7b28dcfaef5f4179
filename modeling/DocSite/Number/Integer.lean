/-! Whole numbers written in one of several bases. -/
namespace DocSite.Number

/-- The value of a digit in bases up to thirty-six. -/
def digit? (base : Nat) (c : Char) : Option Nat :=
  let n :=
    if '0' ≤ c ∧ c ≤ '9' then c.toNat - 48
    else if 'a' ≤ c ∧ c ≤ 'z' then c.toNat - 87
    else if 'A' ≤ c ∧ c ≤ 'Z' then c.toNat - 55
    else base
  if n < base then some n else none

/-- The number that digits stand for. No digits stand for none. -/
def natural? (base : Nat) (digits : List Char) : Option Nat :=
  if digits.isEmpty then none
  else digits.foldl (fun n? c => do return base * (← n?) + (← digit? base c)) (some 0)

end DocSite.Number
