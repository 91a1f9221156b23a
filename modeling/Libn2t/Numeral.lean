/-
This file is a small calculus of positional numerals of bounded width.

A numeral is the list of its digits, most significant first, and its value is
Horner's rule. Two ways of writing a number are treated: at a fixed width, and
with the leading zeros left out but one digit always kept. Both read back to
the number, which is what every parser of a textual number format computes one
character at a time; the bounds on the intermediate values are what lets such
a parser run through without hitting one of its range checks.
-/

import Mathlib.Algebra.Order.Ring.Nat
import Mathlib.Tactic.Ring

namespace Numeral

/-- Horner's rule: read digits from the most significant one, continuing from a value. -/
def horner (base : Nat) (value : Nat) (digits : List Nat) : Nat :=
  digits.foldl (fun value digit => value * base + digit) value

@[simp] theorem horner_nil (base value : Nat) : horner base value [] = value := rfl

@[simp] theorem horner_cons (base value digit : Nat) (rest : List Nat) :
    horner base value (digit :: rest) = horner base (value * base + digit) rest := rfl

/-- Reading on never makes the value smaller. -/
theorem le_horner {base : Nat} (positive : 0 < base) (value : Nat) (digits : List Nat) :
    value ≤ horner base value digits := by
  induction digits generalizing value with
  | nil => exact le_rfl
  | cons digit rest inductionHypothesis =>
    calc value ≤ value * base := Nat.le_mul_of_pos_right value positive
      _ ≤ value * base + digit := Nat.le_add_right _ _
      _ ≤ horner base (value * base + digit) rest := inductionHypothesis _

/-! ### Writing at a fixed width -/

/-- The digits of a number at a fixed width, most significant first. -/
def fixed (base : Nat) : Nat → Nat → List Nat
  | 0, _ => []
  | width + 1, number => number / base ^ width % base :: fixed base width number

@[simp] theorem fixed_length (base width number : Nat) :
    (fixed base width number).length = width := by
  induction width with
  | zero => rfl
  | succ width inductionHypothesis => rw [fixed, List.length_cons, inductionHypothesis]

theorem fixed_lt {base : Nat} (positive : 0 < base) (width number : Nat) :
    ∀ digit ∈ fixed base width number, digit < base := by
  induction width with
  | zero => intro digit member; cases member
  | succ width inductionHypothesis =>
    intro digit member
    rcases List.mem_cons.mp member with rfl | later
    · exact Nat.mod_lt _ positive
    · exact inductionHypothesis digit later

/-- Reading a fixed-width numeral appends its digits to the value read so far. -/
theorem horner_fixed (base width value number : Nat) :
    horner base value (fixed base width number) =
      value * base ^ width + number % base ^ width := by
  induction width generalizing value with
  | zero => simp [fixed, Nat.mod_one]
  | succ width inductionHypothesis =>
    have split : number % base ^ (width + 1) =
        number % base ^ width + base ^ width * (number / base ^ width % base) := by
      rw [pow_succ, Nat.mod_mul]
    rw [fixed, horner_cons, inductionHypothesis, split, pow_succ]
    ring

/-! ### Leaving out the leading zeros -/

/-- The digits without their leading zeros; the last digit is always kept. -/
def trim : List Nat → List Nat
  | [] => []
  | [digit] => [digit]
  | 0 :: digit :: rest => trim (digit :: rest)
  | first :: digit :: rest => first :: digit :: rest

/-- Leading zeros do not change the value. -/
theorem horner_trim (base : Nat) (digits : List Nat) :
    horner base 0 (trim digits) = horner base 0 digits := by
  fun_induction trim digits with
  | case1 => rfl
  | case2 => rfl
  | case3 digit rest inductionHypothesis =>
    rw [inductionHypothesis]
    simp only [horner_cons, Nat.zero_mul, Nat.zero_add]
  | case4 => rfl

theorem trim_length_le (digits : List Nat) : (trim digits).length ≤ digits.length := by
  fun_induction trim digits with
  | case1 => exact le_rfl
  | case2 => exact le_rfl
  | case3 digit rest inductionHypothesis =>
    exact inductionHypothesis.trans (Nat.le_succ _)
  | case4 => exact le_rfl

theorem trim_ne_nil {digits : List Nat} (nonempty : digits ≠ []) : trim digits ≠ [] := by
  fun_induction trim digits with
  | case1 => exact nonempty
  | case2 => exact List.cons_ne_nil _ _
  | case3 digit rest inductionHypothesis => exact inductionHypothesis (List.cons_ne_nil _ _)
  | case4 => exact List.cons_ne_nil _ _

theorem mem_of_mem_trim {digit : Nat} (digits : List Nat) (member : digit ∈ trim digits) :
    digit ∈ digits := by
  fun_induction trim digits with
  | case1 => exact member
  | case2 => exact member
  | case3 second rest inductionHypothesis =>
    exact List.mem_cons_of_mem _ (inductionHypothesis member)
  | case4 => exact member

/-- A trimmed numeral of more than one digit starts with a nonzero digit. -/
theorem trim_head_ne_zero (digits : List Nat) {first : Nat} {rest : List Nat}
    (shape : trim digits = first :: rest) (more : rest ≠ []) : first ≠ 0 := by
  fun_induction trim digits with
  | case1 => cases shape
  | case2 digit =>
    injection shape with _ empty
    exact absurd empty.symm more
  | case3 digit tail inductionHypothesis => exact inductionHypothesis shape
  | case4 head digit tail nonzero =>
    injection shape with same _
    intro zero
    exact nonzero (same.trans zero)

/-- The usual numeral of a number below `base ^ width`: no leading zeros, at least one
digit. -/
def plain (base width number : Nat) : List Nat := trim (fixed base width number)

/-- The usual numeral reads back to its number. -/
theorem horner_plain {base width number : Nat} (small : number < base ^ width) :
    horner base 0 (plain base width number) = number := by
  rw [plain, horner_trim, horner_fixed, Nat.zero_mul, Nat.zero_add, Nat.mod_eq_of_lt small]

theorem plain_length_le (base width number : Nat) :
    (plain base width number).length ≤ width :=
  (trim_length_le _).trans (fixed_length base width number).le

theorem plain_ne_nil (base width number : Nat) : plain base (width + 1) number ≠ [] :=
  trim_ne_nil (List.cons_ne_nil _ _)

theorem plain_lt {base : Nat} (positive : 0 < base) (width number : Nat) :
    ∀ digit ∈ plain base width number, digit < base :=
  fun digit member => fixed_lt positive width number digit (mem_of_mem_trim _ member)

end Numeral
