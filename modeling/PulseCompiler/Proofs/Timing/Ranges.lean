import PulseCompiler.Proofs.Timing.Scope
import PulseCompiler.Proofs.Value.Integers
import Mathlib.Data.Nat.Find
set_option autoImplicit false

/-!
# Range loops

A `for` loop over a range runs over its first value `a`, then `a + d`, `a + 2d`, … for as long
as the values stay within the bound `b`: up to it for a positive step `d`, down to it for a
negative one (`Run.IsRange`). The resolver steps through the range (`Run.rangeSteps`). Before
it pushes a value it tests the cap of `maxLoopTrips` values, and it takes the next value as the
sum with the step when that sum is a 64-bit integer, ending the range when it is not. That exit
never cuts a range short: the values within the bound lie between the first value and the
bound, so they are 64-bit integers (`Run.inWord_of_rangeWithin`), and a sum past the 64-bit
range ends the loop just as a value past the bound does (`Run.rangeSteps_past`). The loop ends
on every input, since each value it pushes uses up room under the cap, and it pushes at most
as many values as the cap allows (`Run.rangeSteps_size_le`).

Main statement: when the bounds and the step of a range fold to 64-bit integers, a zero step
gives no values, and any other gives the whole range, whose values are 64-bit integers, unless it
has more than `maxLoopTrips` values (`Run.loopValues_range_values`).
-/

namespace PulseCompiler

namespace Run

/-- A value of a range with step `d` and bound `b` that is still within it: at most `b` for
a positive step, at least `b` for a negative one. -/
def RangeWithin (d b x : Int) : Prop := (0 < d ∧ x ≤ b) ∨ (d < 0 ∧ b ≤ x)

instance (d b x : Int) : Decidable (RangeWithin d b x) :=
  inferInstanceAs (Decidable ((0 < d ∧ x ≤ b) ∨ (d < 0 ∧ b ≤ x)))

@[simp] theorem inRange_eq_true {d b x : Int} : inRange d b x = true ↔ RangeWithin d b x := by
  simp [inRange, RangeWithin]

/-- `S` is the range from `a` by the step `d` to the bound `b`: the values `a`, `a + d`,
`a + 2d`, … for as long as they stay within the bound. -/
def IsRange (a d b : Int) (S : List Int) : Prop :=
  S = (List.range S.length).map (fun (j : Nat) => a + d * (j : Int)) ∧
    (∀ x ∈ S, RangeWithin d b x) ∧ ¬ RangeWithin d b (a + d * S.length)

instance (a d b : Int) (S : List Int) : Decidable (IsRange a d b S) :=
  inferInstanceAs (Decidable (_ ∧ _ ∧ _))

theorem IsRange.within_of_lt {a d b : Int} {S : List Int} (h : IsRange a d b S) {j : Nat}
    (hj : j < S.length) : RangeWithin d b (a + d * j) := by
  apply h.2.1
  rw [h.1]
  exact List.mem_map.mpr ⟨j, List.mem_range.mpr hj, rfl⟩

/-- A range with a nonzero step passes its bound once it has gone further than the distance
from its first value to the bound. -/
theorem exists_not_rangeWithin {a d b : Int} (hd : d ≠ 0) :
    ∃ n : Nat, ¬ RangeWithin d b (a + d * n) := by
  obtain ⟨n, far⟩ : ∃ n : Nat, b - a < n ∧ a - b < n :=
    ⟨(b - a).toNat + (a - b).toNat + 1, by omega⟩
  refine ⟨n, ?_⟩
  have hn : (0 : Int) ≤ n := Int.natCast_nonneg n
  unfold RangeWithin
  rcases Int.lt_or_gt_of_ne hd with down | up
  · have grows : 0 ≤ (-d - 1) * n := Int.mul_nonneg (by omega) hn
    rw [Int.sub_mul, Int.neg_mul, Int.one_mul] at grows
    omega
  · have grows : 0 ≤ (d - 1) * n := Int.mul_nonneg (by omega) hn
    rw [Int.sub_mul, Int.one_mul] at grows
    omega

theorem exists_isRange {a d b : Int} (hd : d ≠ 0) : ∃ S, IsRange a d b S := by
  have ends := exists_not_rangeWithin (a := a) (b := b) hd
  refine ⟨(List.range (Nat.find ends)).map fun (j : Nat) => a + d * j, ?_, ?_, ?_⟩
  · rw [List.length_map, List.length_range]
  · intro x hx
    obtain ⟨j, hj, rfl⟩ := List.mem_map.mp hx
    exact not_not.mp (Nat.find_min ends (List.mem_range.mp hj))
  · rw [List.length_map, List.length_range]
    exact Nat.find_spec ends

/-- The values within the bound lie between the first value and the bound, so they are 64-bit
words when these are. -/
theorem inWord_of_rangeWithin {a d b j : Int} (ha : InWord a) (hb : InWord b) (hj : 0 ≤ j)
    (h : RangeWithin d b (a + d * j)) : InWord (a + d * j) := by
  rw [inWord_iff] at ha hb ⊢
  rcases h with ⟨up, below⟩ | ⟨down, above⟩
  · have : 0 ≤ d * j := Int.mul_nonneg (Int.le_of_lt up) hj
    omega
  · have : d * j ≤ 0 := Int.mul_nonpos_of_nonpos_of_nonneg (Int.le_of_lt down) hj
    omega

theorem IsRange.inWord {a d b : Int} {S : List Int} (ha : InWord a) (hb : InWord b)
    (h : IsRange a d b S) : ∀ x ∈ S, InWord x := by
  intro x hx
  rw [h.1] at hx
  obtain ⟨j, hj, rfl⟩ := List.mem_map.mp hx
  exact inWord_of_rangeWithin ha hb (Int.natCast_nonneg j)
    (h.within_of_lt (List.mem_range.mp hj))

/-! ### The loop -/

section Steps

variable {within : Int → Bool} {d : Int}

theorem rangeSteps_outside {x : Int} (h : within x = false) (room : Nat) (acc : Array Value) :
    rangeSteps within d room (some x) acc = .ok acc := by
  cases room <;> simp [rangeSteps, h]

theorem rangeSteps_full {x : Int} (h : within x = true) (acc : Array Value) :
    rangeSteps within d 0 (some x) acc = .error (.tooManyIterations maxLoopTrips) := by
  simp [rangeSteps, h]

theorem rangeSteps_push {x : Int} (h : within x = true) (room : Nat) (acc : Array Value) :
    rangeSteps within d (room + 1) (some x) acc =
      rangeSteps within d room (Int.inWordRange (x + d)) (acc.push (.int x)) := by
  simp [rangeSteps, h]

/-- A loop that ends with values has pushed at most as many as the cap left room for. -/
theorem rangeSteps_size_le {room : Nat} {next : Option Int} {acc out : Array Value}
    (h : rangeSteps within d room next acc = .ok out) : out.size ≤ acc.size + room := by
  fun_induction rangeSteps within d room next acc with
  | case1 room acc =>
    cases h
    omega
  | case2 i acc inside => cases h
  | case3 i acc inside room ih =>
    have := ih h
    rw [Array.size_push] at this
    omega
  | case4 room i acc outside =>
    cases h
    omega

end Steps

/-- A value past the bound ends the range, whether the sum that gave it was a 64-bit integer
or not. -/
theorem rangeSteps_past {d b x : Int} (h : ¬ RangeWithin d b x) (room : Nat)
    (acc : Array Value) : rangeSteps (inRange d b) d room (Int.inWordRange x) acc = .ok acc := by
  by_cases hx : InWord x
  · rw [Int.inWordRange_of_inWord hx]
    exact rangeSteps_outside (Bool.eq_false_iff.mpr (mt inRange_eq_true.mp h)) room acc
  · rw [Int.inWordRange_of_not_inWord hx]
    simp [rangeSteps]

/-- The loop over a range of `N` values, started at its `k`-th value with the `m` values from
there on still to come: it pushes all of them when the cap leaves room for them, and stops at
the cap otherwise. -/
theorem rangeSteps_progression {a d b : Int} (ha : InWord a) (hb : InWord b) {N : Nat}
    (inside : ∀ j < N, RangeWithin d b (a + d * j)) (past : ¬ RangeWithin d b (a + d * N))
    (m : Nat) : ∀ (k room : Nat) (acc : Array Value), k + m = N →
      rangeSteps (inRange d b) d room (Int.inWordRange (a + d * k)) acc =
        if m ≤ room then
          .ok (acc ++ ((List.range' k m).map fun (j : Nat) => Value.int (a + d * j)).toArray)
        else .error (.tooManyIterations maxLoopTrips) := by
  induction m with
  | zero =>
    intro k room acc hk
    obtain rfl : k = N := hk
    simp [rangeSteps_past past]
  | succ m ih =>
    intro k room acc hk
    have within := inside k (by omega)
    have word := inWord_of_rangeWithin ha hb (Int.natCast_nonneg k) within
    have next : a + d * k + d = a + d * ((k + 1 : Nat) : Int) := by
      rw [Nat.cast_succ, Int.mul_add, Int.mul_one, Int.add_assoc]
    rw [Int.inWordRange_of_inWord word]
    cases room with
    | zero => rw [rangeSteps_full (inRange_eq_true.mpr within), if_neg (by omega)]
    | succ room =>
      rw [rangeSteps_push (inRange_eq_true.mpr within), next, ih (k + 1) room _ (by omega)]
      simp [List.range'_succ]

/-! ### The values of a range loop -/

theorem rangeValues_of_ne {a d b : Int} (hd : d ≠ 0) :
    rangeValues a d b = Array.toList <$> rangeSteps (inRange d b) d maxLoopTrips (some a) #[] := by
  simp [rangeValues, hd]

theorem rangeValues_length_le {a d b : Int} {values : List Value}
    (h : rangeValues a d b = .ok values) : values.length ≤ maxLoopTrips := by
  by_cases hd : d = 0
  · simp [rangeValues, hd] at h
  · rw [rangeValues_of_ne hd] at h
    obtain ⟨out, steps, rfl⟩ := except_map_eq_ok.mp h
    simpa using rangeSteps_size_le steps

/-- An expression folds to a value that reads as the integer `n`, as the bounds and the step
of a range are read. -/
def FoldsToInt (ctx : RunSetting) (env : Env) (e : Expr) (n : Int) : Prop :=
  ∃ v, Fold.eval ⟨ctx.registry, ctx.sampleRate, env⟩ e = .ok v ∧ v.asInt? = some n

/-- A range loop whose bounds and step fold to integers runs over the values of that range. -/
theorem loopValues_range_eq {ctx : RunSetting} {env : Env} {start stop : Expr}
    {step : Option Expr} {a b d : Int} (hstart : FoldsToInt ctx env start a)
    (hstop : FoldsToInt ctx env stop b)
    (hstep : FoldsToInt ctx env (step.getD (.lit (.int 1))) d) :
    loopValues ctx env (.range start step stop) = rangeValues a d b := by
  obtain ⟨va, hva, ia⟩ := hstart
  obtain ⟨vb, hvb, ib⟩ := hstop
  cases step with
  | none =>
    rw [Option.getD_none] at hstep
    obtain ⟨_, folded, one⟩ := hstep
    cases folded
    cases (Option.some.inj one : 1 = d)
    simp [loopValues, hva, ia, hvb, ib, Bind.bind, Except.bind, Pure.pure, Except.pure]
  | some s =>
    rw [Option.getD_some] at hstep
    obtain ⟨vd, hvd, id⟩ := hstep
    simp [loopValues, hva, ia, hvb, ib, hvd, id, Bind.bind, Except.bind, Pure.pure, Except.pure]

theorem loopValues_range_length_le (ctx : RunSetting) (env : Env) (start : Expr)
    (step : Option Expr) (stop : Expr) {values : List Value}
    (h : loopValues ctx env (.range start step stop) = .ok values) :
    values.length ≤ maxLoopTrips := by
  rw [loopValues] at h
  obtain ⟨a, -, h⟩ := except_bind_eq_ok.mp h
  obtain ⟨b, -, h⟩ := except_bind_eq_ok.mp h
  cases step with
  | none => exact rangeValues_length_le (d := 1) h
  | some s =>
    obtain ⟨d, -, h⟩ := except_bind_eq_ok.mp h
    exact rangeValues_length_le h

/-- The values of a range loop whose first value, bound and step (`1` when it has none) fold to
the 64-bit integers `a`, `b` and `d`. A zero step gives none. Any other runs the loop over the
range from `a` by `d` to `b`, which exists and consists of 64-bit words, as long as it has at
most `maxLoopTrips` values; a longer range gives none. -/
theorem loopValues_range_values (ctx : RunSetting) (env : Env) (start stop : Expr)
    (step : Option Expr) (a b d : Int64) (hstart : FoldsToInt ctx env start a.toInt)
    (hstop : FoldsToInt ctx env stop b.toInt)
    (hstep : FoldsToInt ctx env (step.getD (.lit (.int 1))) d.toInt) :
    (d.toInt = 0 → loopValues ctx env (.range start step stop) = .error .zeroStep) ∧
    (d.toInt ≠ 0 → (∃ S, IsRange a.toInt d.toInt b.toInt S) ∧
      ∀ S, IsRange a.toInt d.toInt b.toInt S → (∀ x ∈ S, InWord x) ∧
        (S.length ≤ maxLoopTrips →
          loopValues ctx env (.range start step stop) = .ok (S.map .int)) ∧
        (maxLoopTrips < S.length →
          loopValues ctx env (.range start step stop) =
            .error (.tooManyIterations maxLoopTrips))) := by
  have eq := loopValues_range_eq hstart hstop hstep
  refine ⟨fun zero => by simp [eq, rangeValues, zero],
    fun nonzero => ⟨exists_isRange nonzero, fun S range => ?_⟩⟩
  have ha := Int64.inWord_toInt a
  have hb := Int64.inWord_toInt b
  have run := rangeSteps_progression ha hb (fun j hj => range.within_of_lt hj) range.2.2
    S.length 0 maxLoopTrips #[] (Nat.zero_add _)
  rw [Nat.cast_zero, Int.mul_zero, Int.add_zero, Int.inWordRange_of_inWord ha] at run
  have values : S.map Value.int =
      (List.range' 0 S.length).map fun (j : Nat) => Value.int (a.toInt + d.toInt * j) := by
    conv_lhs => rw [range.1]
    rw [List.map_map, List.range_eq_range']
    rfl
  rw [eq, rangeValues_of_ne nonzero, run]
  refine ⟨range.inWord ha hb, fun few => ?_, fun many => ?_⟩
  · rw [if_pos few, values]
    simp [Functor.map, Except.map]
  · rw [if_neg (Nat.not_le.mpr many)]
    rfl

/-- A range that ends at the least 64-bit integer has its values down to it, although the step
after the last passes the least integer. -/
theorem loopValues_range_values_atLeast :
    FoldsToInt ⟨Registry.empty, 1.0, .record⟩ {} (.lit (.int (-9223372036854775807)))
        (-9223372036854775807) ∧
      FoldsToInt ⟨Registry.empty, 1.0, .record⟩ {} (.lit (.int (-9223372036854775808)))
        (-9223372036854775808) ∧
      FoldsToInt ⟨Registry.empty, 1.0, .record⟩ {} (.lit (.int (-1))) (-1) ∧
      loopValues ⟨Registry.empty, 1.0, .record⟩ {}
          (.range (.lit (.int (-9223372036854775807))) (some (.lit (.int (-1))))
            (.lit (.int (-9223372036854775808)))) =
        .ok [.int (-9223372036854775807), .int (-9223372036854775808)] := by
  have first : FoldsToInt ⟨Registry.empty, 1.0, .record⟩ {} (.lit (.int (-9223372036854775807)))
      (-9223372036854775807 : Int64).toInt := ⟨_, rfl, rfl⟩
  have last : FoldsToInt ⟨Registry.empty, 1.0, .record⟩ {} (.lit (.int (-9223372036854775808)))
      (-9223372036854775808 : Int64).toInt := ⟨_, rfl, rfl⟩
  have step : FoldsToInt ⟨Registry.empty, 1.0, .record⟩ {} (.lit (.int (-1)))
      (-1 : Int64).toInt := ⟨_, rfl, rfl⟩
  have range : IsRange (-9223372036854775807) (-1) (-9223372036854775808)
      [-9223372036854775807, -9223372036854775808] := by decide
  have ran := (loopValues_range_values ⟨Registry.empty, 1.0, .record⟩ {} _ _
    (some (.lit (.int (-1)))) (-9223372036854775807) (-9223372036854775808) (-1)
    first last step).2 (by decide)
  exact ⟨first, last, step, (ran.2 _ range).2.1 (by decide)⟩

end Run

end PulseCompiler
