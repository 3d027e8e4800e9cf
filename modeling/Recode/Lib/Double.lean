import Mathlib.Algebra.Order.Ring.Nat

/-! # Whole numbers in double precision

A sum, a product or a quotient of whole numbers is rounded to the nearest number with 53 binary
digits, and a tie to the even one. Up to a limit all whole numbers stay what they are. -/

namespace Recode
namespace Double

/-- Every whole number up to this one is a double. -/
def exactLimit : Nat := 9007199254740992

/-- A quotient rounded to the nearest whole number. -/
def divEven (dividend divisor : Nat) : Nat :=
  let quotient := dividend / divisor
  let twice := 2 * (dividend % divisor)
  if twice < divisor ∨ (twice = divisor ∧ quotient % 2 = 0) then quotient else quotient + 1

/-- The whole part of the double nearest to a quotient. -/
def floorQuotient (dividend divisor : Nat) : Nat :=
  let digits := (2 * (dividend / divisor)).log2
  let spacing := 2 ^ (digits - 53)
  let fine := 2 ^ (53 - digits)
  divEven (dividend * fine) (divisor * spacing) * spacing / fine

/-- The double nearest to a whole number. -/
def round (value : Nat) : Nat := floorQuotient value 1

theorem div_le_divEven (dividend divisor : Nat) :
    dividend / divisor ≤ divEven dividend divisor := by
  unfold divEven
  dsimp only
  split <;> omega

theorem divEven_one (dividend : Nat) : divEven dividend 1 = dividend := by
  simp [divEven, Nat.mod_one]

theorem round_of_le {value : Nat} (small : value ≤ exactLimit) : round value = value := by
  rcases Nat.lt_or_eq_of_le small with less | rfl
  · have digits : (2 * value).log2 - 53 = 0 := by
      by_cases zero : 2 * value = 0
      · rw [zero]
        decide
      · have doubled : 2 * value < 2 ^ 54 := by
          unfold exactLimit at less
          omega
        have bits := (Nat.log2_lt zero).mpr doubled
        omega
    simp only [round, floorQuotient, Nat.div_one, digits, Nat.pow_zero, Nat.mul_one, divEven_one]
    exact Nat.mul_div_cancel _ (Nat.two_pow_pos _)
  · decide +kernel

theorem round_succ_exactLimit : round (exactLimit + 1) = exactLimit := by decide +kernel

theorem le_round {value : Nat} (large : exactLimit ≤ value) : exactLimit ≤ round value := by
  have positive : 2 * value ≠ 0 := by
    unfold exactLimit at large
    omega
  have digits : 54 ≤ (2 * value).log2 := by
    rw [Nat.le_log2 positive]
    unfold exactLimit at large
    omega
  have whole : 2 ^ (2 * value).log2 ≤ 2 * value := Nat.log2_self_le positive
  have fine : 53 - (2 * value).log2 = 0 := by omega
  simp only [round, floorQuotient, Nat.div_one, fine, Nat.pow_zero, Nat.mul_one, Nat.one_mul]
  generalize (2 * value).log2 = count at digits whole
  have split : 2 ^ count = 2 ^ 53 * 2 ^ (count - 53) := by
    rw [← Nat.pow_add]
    congr 1
    omega
  have spacing : 2 ≤ 2 ^ (count - 53) := Nat.le_self_pow (by omega) 2
  have quotient : 2 ^ 52 ≤ value / 2 ^ (count - 53) := by
    rw [Nat.le_div_iff_mul_le (by omega)]
    omega
  calc exactLimit = 2 ^ 52 * 2 := by decide
    _ ≤ divEven value (2 ^ (count - 53)) * 2 ^ (count - 53) :=
      Nat.mul_le_mul (Nat.le_trans quotient (div_le_divEven _ _)) spacing

/-- A sum of doubles, added one after the other. -/
def sum (values : List Nat) : Nat := values.foldl (fun total value => round (total + value)) 0

theorem sum_of_le {values : List Nat} (small : values.sum ≤ exactLimit) :
    sum values = values.sum := by
  suffices exact : ∀ total, total + values.sum ≤ exactLimit →
      values.foldl (fun total value => round (total + value)) total = total + values.sum by
    simpa [sum] using exact 0 (by simpa using small)
  clear small
  induction values with
  | nil => exact fun _ _ => rfl
  | cons value values ih =>
    intro total small
    rw [List.sum_cons] at small ⊢
    rw [List.foldl_cons, round_of_le (by omega), ih _ (by omega), Nat.add_assoc]

end Double
end Recode
