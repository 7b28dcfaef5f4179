import Mathlib.Data.List.Induction
import DocSite.Proofs.OutputPath

/-! The order of numbered names. Their numbers are written in decimal with any zeros in front, and a
lower one comes first. Names without a number come behind all others only as far as these have a
lower number than the greatest, which is also what counts for no number at all. -/
namespace DocSite.Naming

open Text (lowered)

/-- The digits of a number, behind any zeros. -/
def Numeral (m : Nat) (digits : List Char) : Prop :=
  ∃ zeros, digits = List.replicate zeros '0' ++ Nat.toDigits 10 m

theorem numberOf_eq (digits : List Char) : numberOf digits = Nat.ofDigitChars 10 digits 0 := by
  rw [Nat.ofDigitChars_eq_foldl, numberOf]
  simp only [Nat.mul_comm]

/-- A digit is the one digit of its value. -/
theorem toDigits_of_isAsciiDigit {c : Char} (digit : isAsciiDigit c = true) :
    numberOf [c] < 10 ∧ Nat.toDigits 10 (numberOf [c]) = [c] := by
  have range : 48 ≤ c.toNat ∧ c.toNat ≤ 57 := by
    simp only [isAsciiDigit, Bool.and_eq_true, decide_eq_true_eq] at digit
    exact digit
  have value : numberOf [c] = c.toNat - 48 := Nat.zero_add _
  have small : numberOf [c] < 10 := by omega
  refine ⟨small, ?_⟩
  rw [Nat.toDigits_of_lt_base small, value, List.singleton_inj]
  apply Char.toNat_inj.mp
  rw [Nat.toNat_digitChar_of_lt_ten (by omega)]
  omega

theorem isAsciiDigit_of_isDigit {c : Char} (digit : c.isDigit = true) : isAsciiDigit c = true := by
  simp only [Char.isDigit, Bool.and_eq_true, decide_eq_true_eq] at digit
  simp only [isAsciiDigit, Bool.and_eq_true, decide_eq_true_eq]
  exact digit

namespace Numeral

variable {m : Nat} {digits : List Char}

theorem digits_spec (numeral : Numeral m digits) :
    digits ≠ [] ∧ (∀ c ∈ digits, isAsciiDigit c = true) ∧ numberOf digits = m := by
  obtain ⟨zeros, rfl⟩ := numeral
  refine ⟨?_, fun c member => ?_, ?_⟩
  · exact List.append_ne_nil_of_right_ne_nil _ Nat.toDigits_ne_nil
  · rcases List.mem_append.mp member with zero | digit
    · rw [List.eq_of_mem_replicate zero]
      rfl
    · exact isAsciiDigit_of_isDigit (Nat.isDigit_of_mem_toDigits (by decide) (by decide) digit)
  · rw [numberOf_eq, Nat.ofDigitChars_append, Nat.ofDigitChars_replicate_zero, Nat.mul_zero,
      Nat.ofDigitChars_ten_toDigits]

/-- One more digit behind a numeral. -/
theorem snoc (numeral : Numeral m digits) {c : Char} (digit : isAsciiDigit c = true) :
    Numeral (numberOf (digits ++ [c])) (digits ++ [c]) := by
  obtain ⟨small, single⟩ := toDigits_of_isAsciiDigit digit
  have value : numberOf (digits ++ [c]) = 10 * m + numberOf [c] := by
    rw [numberOf_eq, Nat.ofDigitChars_append, ← numberOf_eq, numeral.digits_spec.2.2,
      Nat.ofDigitChars_eq_ofDigitChars_zero, ← numberOf_eq]
    rfl
  obtain ⟨zeros, rfl⟩ := numeral
  rw [value]
  rcases Nat.eq_zero_or_pos m with rfl | positive
  · refine ⟨zeros + 1, ?_⟩
    rw [Nat.mul_zero, Nat.zero_add, single, Nat.toDigits_zero, List.replicate_succ']
  · refine ⟨zeros, ?_⟩
    rw [← Nat.toDigits_append_toDigits (by decide) positive small, single, List.append_assoc]

end Numeral

theorem numeral_of_digits (digits : List Char) (filled : digits ≠ [])
    (all : ∀ c ∈ digits, isAsciiDigit c = true) : Numeral (numberOf digits) digits := by
  induction digits using List.reverseRecOn with
  | nil => exact absurd rfl filled
  | append_singleton digits c ih =>
    have last : isAsciiDigit c = true := all c (by simp)
    rcases eq_or_ne digits [] with rfl | filled
    · exact ⟨0, (toDigits_of_isAsciiDigit last).2.symm⟩
    · exact (ih filled fun d member => all d (List.mem_append_left _ member)).snoc last

/-- An order prefix is a numeral below the bound and an underscore. -/
theorem splitPrefix?_eq_some_iff {name rest : List Char} {m : Nat} :
    splitPrefix? name = some (m, rest) ↔
      m < numberBound ∧ ∃ digits, Numeral m digits ∧ name = digits ++ '_' :: rest := by
  constructor
  · intro found
    by_cases marked : '_' ∈ name
    · obtain ⟨digits, behind, rfl, free⟩ := List.eq_append_cons_of_mem marked
      rw [splitPrefix?_marked free] at found
      split at found
      · cases found
      · rename_i fits
        simp only [Bool.or_eq_true, Bool.not_eq_true', decide_eq_true_eq, not_or,
          Bool.not_eq_false, Nat.not_le, List.isEmpty_iff, List.all_eq_true] at fits
        obtain ⟨⟨filled, all⟩, small⟩ := fits
        cases found
        exact ⟨small, digits, numeral_of_digits digits filled all, rfl⟩
    · rw [splitPrefix?_unmarked marked] at found
      cases found
  · rintro ⟨small, digits, numeral, rfl⟩
    obtain ⟨filled, all, value⟩ := numeral.digits_spec
    have free : '_' ∉ digits := fun member => absurd (all _ member) (by decide)
    have fits : ¬ (digits.isEmpty || !digits.all isAsciiDigit ||
        decide (numberBound ≤ numberOf digits)) = true := by
      simp [filled, List.all_eq_true.mpr all, value, small]
    rw [splitPrefix?_marked free, if_neg fits, value]

theorem parse_number_iff {a : String} {m : Nat} : (parse a).number = some m ↔
    m < numberBound ∧ ∃ digits rest, Numeral m digits ∧ a.toList = digits ++ '_' :: rest := by
  rw [parse]
  cases parted : splitPrefix? a.toList with
  | none =>
    refine ⟨nofun, ?_⟩
    rintro ⟨small, digits, rest, numeral, same⟩
    rw [splitPrefix?_eq_some_iff.mpr ⟨small, digits, numeral, same⟩] at parted
    cases parted
  | some found =>
    obtain ⟨n, rest⟩ := found
    obtain ⟨small, digits, numeral, same⟩ := splitPrefix?_eq_some_iff.mp parted
    constructor
    · rintro ⟨⟩
      exact ⟨small, digits, rest, numeral, same⟩
    · rintro ⟨small', digits', rest', numeral', same'⟩
      rw [splitPrefix?_eq_some_iff.mpr ⟨small', digits', numeral', same'⟩] at parted
      cases parted
      rfl

theorem parse_unnumbered {b : String} (unnumbered : (parse b).number = none) :
    parse b = ⟨none, b⟩ := by
  rw [parse] at unnumbered ⊢
  split at unnumbered
  · cases unnumbered
  · rfl

theorem compareKeys_eq_lt {a b : Nat × String} :
    compareKeys a b = .lt ↔ a.1 < b.1 ∨ a.1 = b.1 ∧ a.2 < b.2 := by
  rw [compareKeys, Ordering.then_eq_lt, Nat.compare_eq_lt, Nat.compare_eq_eq]
  exact or_congr_right (and_congr_right fun _ => compareOfLessAndEq_eq_lt)

/-- A name has the number that the digits before its first underscore stand for, whatever zeros they
begin with, unless the number is too great. Its key comes before the key of every name with a
greater number, and before that of a name without a number just when its own number is not the
greatest one, or when what follows the number comes before the other name. -/
theorem numbered_first_iff (a : String) (m : Nat) :
    ((parse a).number = some m ↔ m < numberBound ∧
      ∃ digits rest, Numeral m digits ∧ a.toList = digits ++ '_' :: rest) ∧
    ((parse a).number = some m →
      (∀ b, (parse b).number = none →
        (compareKeys (parse a).sortKey (parse b).sortKey = .lt ↔
          m + 1 < numberBound ∨ lowered (parse a).name < lowered b)) ∧
      ∀ b n, (parse b).number = some n → m < n →
        compareKeys (parse a).sortKey (parse b).sortKey = .lt) := by
  refine ⟨parse_number_iff, fun numbered => ⟨fun b unnumbered => ?_, fun b n numbered' less => ?_⟩⟩
  · have small := (parse_number_iff.mp numbered).1
    have none : (parse b).sortKey = (numberBound - 1, lowered b) := by
      rw [parse_unnumbered unnumbered]
      rfl
    have number : (parse a).sortKey.1 = m := by
      rw [EntryName.sortKey, numbered, Option.getD_some]
    rw [compareKeys_eq_lt, none, number]
    change m < numberBound - 1 ∨ m = numberBound - 1 ∧ lowered (parse a).name < lowered b ↔ _
    -- only the greatest number leaves it to the names
    rcases Nat.lt_or_ge (m + 1) numberBound with below | greatest
    · exact iff_of_true (.inl (by omega)) (.inl below)
    · rw [or_iff_right (by omega), or_iff_right (by omega)]
      exact and_iff_right (by omega)
  · rw [compareKeys_eq_lt, EntryName.sortKey, EntryName.sortKey, numbered, numbered']
    exact .inl less

theorem zoo_first :
    (parse "007_Zoo").number = some 7 ∧ (parse "apple").number = none ∧
    (parse "10_Ant").number = some 10 ∧
    compareKeys (parse "007_Zoo").sortKey (parse "apple").sortKey = .lt ∧
    compareKeys (parse "007_Zoo").sortKey (parse "10_Ant").sortKey = .lt := by
  have zoo : (parse "007_Zoo").number = some 7 := by decide +kernel
  have apple : (parse "apple").number = none := by decide +kernel
  have ant : (parse "10_Ant").number = some 10 := by decide +kernel
  obtain ⟨first, less⟩ := (numbered_first_iff "007_Zoo" 7).2 zoo
  exact ⟨zoo, apple, ant, (first "apple" apple).mpr (.inl (by decide)),
    less "10_Ant" 10 ant (by decide)⟩

/-- The greatest number is also what a name without a number is given. -/
theorem greatest_number_follows :
    (parse "4294967295_b").number = some 4294967295 ∧ (parse "a").number = none ∧
    compareKeys (parse "4294967295_b").sortKey (parse "a").sortKey = .gt ∧
    compareKeys (parse "4294967295_a").sortKey (parse "a").sortKey = .eq := by
  decide +kernel

end DocSite.Naming
