import PulseCompiler.Value.Eval
import Mathlib.Algebra.Ring.Int.Parity
set_option autoImplicit false

/-!
# Integer folding is exact

Folding keeps integers as signed 64-bit words (`InWord`) and computes on them exactly: an
operation on two words gives the mathematical result or refuses, and never wraps. Sums,
differences, products, negations and powers whose exponent is an unsigned 32-bit word are
*checked*: the exact result when it is a word, an overflow otherwise (`Fold.Checked`). A division
by a word other than zero always answers: the exact quotient when the divisor divides the
dividend and the quotient is a word, a double otherwise. A remainder is the one of truncated
division, and overflows only for the least word divided by `-1` (`Int.tdiv_inWord_iff`).

Powers are computed only below the exponent 64; from there on every base but `0`, `1` and `-1`
has left the range, so the shortcut changes no answer (`Int.powChecked_eq`).

Main statement: `Fold.arith_int_exact`.
-/

namespace PulseCompiler

/-- An integer within the signed 64-bit range. -/
def InWord (n : Int) : Prop := int64Min ≤ n ∧ n ≤ int64Max

instance : DecidablePred InWord := fun _ => inferInstanceAs (Decidable (_ ∧ _))

theorem int64Min_eq : int64Min = -9223372036854775808 := rfl

theorem int64Max_eq : int64Max = 9223372036854775807 := rfl

theorem inWord_iff {n : Int} :
    InWord n ↔ -9223372036854775808 ≤ n ∧ n ≤ 9223372036854775807 :=
  Iff.rfl

theorem Int64.inWord_toInt (a : Int64) : InWord a.toInt := by
  have low := Int64.le_toInt a
  have high := Int64.toInt_lt a
  rw [inWord_iff]
  omega

theorem Int.inWordRange_of_inWord {n : Int} (h : InWord n) : Int.inWordRange n = some n := if_pos h

theorem Int.inWordRange_of_not_inWord {n : Int} (h : ¬ InWord n) : Int.inWordRange n = none :=
  if_neg h

theorem Int.tdiv_inWord_iff {a b : Int} (ha : InWord a) (hb : b ≠ 0) :
    InWord (a.tdiv b) ↔ ¬ (a = int64Min ∧ b = -1) := by
  rw [inWord_iff] at ha
  constructor
  · rintro h ⟨rfl, rfl⟩
    rw [inWord_iff, Int.tdiv_neg, Int.tdiv_one, int64Min_eq] at h
    omega
  · intro notMin
    rw [inWord_iff]
    have shrinks := Int.natAbs_tdiv_le_natAbs a b
    by_cases unit : b.natAbs = 1
    · have : b = 1 ∨ b = -1 := by omega
      rcases this with rfl | rfl
      · rw [Int.tdiv_one]
        omega
      · rw [Int.tdiv_neg, Int.tdiv_one]
        rw [int64Min_eq] at notMin
        omega
    · have halves : (a.tdiv b).natAbs ≤ a.natAbs / 2 := by
        rw [Int.natAbs_tdiv]
        exact Nat.div_le_div_left (by omega) (by decide)
      omega

theorem Int.isSome_inWordRange {n : Int} : (Int.inWordRange n).isSome = true ↔ InWord n := by
  by_cases h : InWord n
  · simp [Int.inWordRange_of_inWord h, h]
  · simp [Int.inWordRange_of_not_inWord h, h]

/-- A power of a base other than `0`, `1` and `-1` leaves the 64-bit range from the exponent
64 on. -/
theorem Int.pow_not_inWord {a : Int} (big : 2 ≤ a.natAbs) {e : Nat} (he : 64 ≤ e) :
    ¬ InWord (a ^ e) := by
  have grows : 2 ^ 64 ≤ (a ^ e).natAbs := by
    rw [Int.natAbs_pow]
    calc 2 ^ 64 ≤ 2 ^ e := Nat.pow_le_pow_right (by decide) he
      _ ≤ a.natAbs ^ e := Nat.pow_le_pow_left big e
  rw [inWord_iff]
  omega

theorem Int.neg_one_pow_eq (e : Nat) : (-1 : Int) ^ e = if e % 2 = 0 then 1 else -1 := by
  split
  · exact (Nat.even_iff.mpr ‹_›).neg_one_pow
  · exact (Nat.odd_iff.mpr (by omega)).neg_one_pow

/-- The checked power is the exact power, within the 64-bit range. -/
theorem Int.powChecked_eq (a : Int) (e : Nat) : Int.powChecked a e = Int.inWordRange (a ^ e) := by
  have small : ∀ n : Int, -1 ≤ n → n ≤ 1 → Int.inWordRange n = some n := fun n low high =>
    Int.inWordRange_of_inWord (by rw [inWord_iff]; omega)
  unfold Int.powChecked
  split
  · rename_i zero
    subst zero
    cases e <;> simp [small]
  · split
    · rename_i one
      subst one
      simp [small]
    · split
      · rename_i minusOne
        subst minusOne
        rw [Int.neg_one_pow_eq]
        split <;> simp [small]
      · split
        · rename_i zero one minusOne he
          have big : 2 ≤ a.natAbs := by omega
          exact (Int.inWordRange_of_not_inWord (Int.pow_not_inWord big he)).symm
        · rfl

namespace Fold

/-- The answer of a checked integer operation whose exact result is `n`: `n` itself when it
lies in the 64-bit range, an overflow otherwise. -/
def Checked (r : Except EvalError Value) (n : Int) : Prop :=
  if InWord n then r = .ok (.int n) else r = .error .overflow

/-- What folding `a op b` on integers answers, told by the exact result: a checked sum,
difference and product; a power checked when its exponent is an unsigned 32-bit word and a
double otherwise; a quotient that is the exact one when the divisor divides and it fits, and a
double otherwise; the remainder of truncated division, which overflows only for the least word
divided by `-1`. Dividing by zero is refused. -/
def IntExact : ArithOp → Int → Int → Except EvalError Value → Prop
  | .add, a, b, r => Checked r (a + b)
  | .sub, a, b, r => Checked r (a - b)
  | .mul, a, b, r => Checked r (a * b)
  | .div, a, b, r =>
    if b = 0 then ∃ e, r = .error e
    else if b ∣ a ∧ InWord (a.tdiv b) then r = .ok (.int (a.tdiv b))
    else ∃ x, r = .ok (.float x)
  | .mod, a, b, r =>
    if b = 0 then ∃ e, r = .error e
    else if a = int64Min ∧ b = -1 then r = .error .overflow
    else r = .ok (.int (a.tmod b))
  | .pow, a, b, r =>
    if 0 ≤ b ∧ b ≤ uint32Max then Checked r (a ^ b.toNat)
    else ∃ x, r = .ok (.float x)

/-- An answer that follows the range check of the exact result is its checked answer. -/
theorem checked_of_range {r : Except EvalError Value} {n : Int}
    (fits : ∀ m, Int.inWordRange n = some m → r = .ok (.int m))
    (overflows : Int.inWordRange n = none → r = .error .overflow) : Checked r n := by
  unfold Checked
  split
  · exact fits n (Int.inWordRange_of_inWord ‹_›)
  · exact overflows (Int.inWordRange_of_not_inWord ‹_›)

theorem intArith_exact (op : ArithOp) {a b : Int} (ha : InWord a) :
    IntExact op a b (intArith op a b) := by
  cases op with
  | add | sub | mul =>
    simp only [IntExact, intArith]
    exact checked_of_range (fun _ h => by rw [h]) (fun h => by rw [h])
  | div =>
    simp only [IntExact, intArith]
    by_cases zero : b = 0
    · simp [zero]
    · rw [if_neg zero, if_neg zero]
      by_cases exact : b ∣ a ∧ InWord (a.tdiv b)
      · rw [if_pos exact, Int.inWordRange_of_inWord exact.2, Option.isSome_some, if_pos rfl,
          if_pos (Int.dvd_iff_tmod_eq_zero.mp exact.1)]
      · rw [if_neg exact]
        split
        · split
          · rename_i fits divides
            exact absurd ⟨Int.dvd_iff_tmod_eq_zero.mpr divides, Int.isSome_inWordRange.mp fits⟩
              exact
          · exact ⟨_, rfl⟩
        · exact ⟨_, rfl⟩
  | mod =>
    simp only [IntExact, intArith]
    by_cases zero : b = 0
    · simp [zero]
    · rw [if_neg zero, if_neg zero]
      have fits := Int.tdiv_inWord_iff ha zero
      by_cases least : a = int64Min ∧ b = -1
      · rw [if_pos least, Int.inWordRange_of_not_inWord fun h => fits.mp h least]
        rfl
      · rw [if_neg least, Int.inWordRange_of_inWord (fits.mpr least)]
        rfl
  | pow =>
    simp only [IntExact, intArith]
    split
    · rw [Int.powChecked_eq]
      exact checked_of_range (fun _ h => by rw [h]) (fun h => by rw [h])
    · exact ⟨_, rfl⟩

/-- Negating an integer is checked like the other operations. -/
theorem unary_neg_int (a : Int) : Checked (unary .neg (.int a)) (-a) :=
  checked_of_range (fun _ h => by simp only [unary, h]) (fun h => by simp only [unary, h])

/-- Folding never wraps an integer: on two 64-bit integers each arithmetic operation, and
negation on one, gives the exact result or refuses as `IntExact` and `Checked` say. -/
theorem arith_int_exact (a b : Int64) :
    (∀ op, IntExact op a.toInt b.toInt (arith op (.int a.toInt) (.int b.toInt))) ∧
      Checked (unary .neg (.int a.toInt)) (-a.toInt) :=
  ⟨fun op => intArith_exact op (Int64.inWord_toInt a), unary_neg_int a.toInt⟩

end Fold

end PulseCompiler
