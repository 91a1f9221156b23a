/-
This file is about numbers that count on past their width and start again at
zero, as sequence numbers and clocks do. They are compared by the sign of their
difference.

A number stands for the natural number of steps from a base to it. As long as
two step counts are less than half the range apart, the signed difference of
their numbers is the difference of the counts, so every comparison of the
numbers is the comparison of the counts.
-/

import Mathlib.Data.BitVec
import Mathlib.Tactic.Ring

namespace Serial

variable {w : Nat}

/-- The number `count` steps after a base. -/
def advance (base : BitVec w) (count : Nat) : BitVec w := base + BitVec.ofNat w count

/-- The signed difference of two numbers. -/
def difference (a b : BitVec w) : Int := (a - b).toInt

/-- Two counts are less than half the range of a width apart. -/
def Near (w m n : Nat) : Prop := m < n + 2 ^ (w - 1) ∧ n < m + 2 ^ (w - 1)

theorem advance_zero (base : BitVec w) : advance base 0 = base := by
  simp [advance]

theorem advance_advance (base : BitVec w) (m n : Nat) :
    advance (advance base m) n = advance base (m + n) := by
  simp only [advance, BitVec.ofNat_add, BitVec.add_assoc]

/-- Going back from a number to an earlier one. -/
theorem advance_sub {m n : Nat} (base : BitVec w) (later : n ≤ m) :
    advance base m - advance base n = BitVec.ofNat w (m - n) := by
  have split : BitVec.ofNat w m = BitVec.ofNat w (m - n) + BitVec.ofNat w n := by
    rw [← BitVec.ofNat_add, Nat.sub_add_cancel later]
  unfold advance
  rw [add_sub_add_left_eq_sub, split, add_sub_cancel_right]

/-- The signed difference of two near numbers is the difference of their counts. -/
theorem difference_advance {m n : Nat} (base : BitVec w) (near : Near w m n) :
    difference (advance base m) (advance base n) = (m : Int) - n := by
  have cancel : advance base m - advance base n = BitVec.ofNat w m - BitVec.ofNat w n :=
    add_sub_add_left_eq_sub _ _ _
  unfold difference
  rw [cancel, BitVec.toInt_sub, BitVec.toInt_ofNat', BitVec.toInt_ofNat', Int.bmod_sub_bmod,
    Int.sub_bmod_bmod]
  obtain ⟨above, below⟩ := near
  cases w with
  | zero =>
    change m < n + 1 at above
    change n < m + 1 at below
    have same : m = n := by omega
    rw [same, Int.sub_self, Int.zero_bmod]
  | succ w =>
    rw [Nat.add_sub_cancel] at above below
    have range : ((2 ^ (w + 1) : Nat) : Int) = 2 * (2 ^ w : Nat) := by
      rw [pow_succ]
      push_cast
      ring
    apply Int.bmod_eq_of_le_mul_two
    · rw [range]
      omega
    · rw [range]
      omega

/-- Near numbers are equal only if their counts are. -/
theorem advance_inj {m n : Nat} {base : BitVec w} (near : Near w m n) :
    advance base m = advance base n ↔ m = n := by
  constructor
  · intro same
    have zero := difference_advance base near
    rw [same, difference, BitVec.sub_self, BitVec.toInt_zero] at zero
    omega
  · rintro rfl
    rfl

end Serial
