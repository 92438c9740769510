import PulseCompiler.Report
set_option autoImplicit false

/-!
# Repetitions of loop nests

A program report counts the repetitions of a program: how often the statements of its
deepest loop nest run, read off the trip counts the resolver recorded for each `for` loop.
The report computes them by one recursion over the statement tree: a block takes the largest
figure of its statements, a statement the largest of its blocks (`1` without any, `1` for an
empty block), and a `for` loop multiplies by its trips, saturating at the largest 64-bit count.

Here the figure is described by paths instead. A maximal descending path (`Stmt.Descends`)
starts at a statement of the program and goes down through blocks until it reaches a statement
without blocks or an empty block; along it the trips of the `for` loops multiply. The main
statement, `ProgramReport.repetitions_eq_largest_nest`, says the reported repetitions are the
largest such product, computed in naturals and capped at the largest 64-bit count, and `1` for
a program without statements.

Two facts carry the proof. Saturating at every loop of a nest gives the cap of the exact
product (`saturatingMul_capCount`), so the recursion's figure for a block is the capped
product of one of its paths (`Stmt.listRepetitions_attained`, by structural recursion), and it
bounds the capped product of every path (`Stmt.Descends.capCount_le`, by induction on the
path).
-/

namespace PulseCompiler

/-! ### Counts capped at 64 bits -/

/-- A count saturated at the largest 64-bit count. -/
def capCount (n : Nat) : Nat := Nat.min n (countLimit - 1)

theorem saturatingMul_eq_capCount (a b : Nat) : saturatingMul a b = capCount (a * b) := rfl

theorem capCount_le (n : Nat) : capCount n ≤ countLimit - 1 := Nat.min_le_right _ _

theorem capCount_of_le {n : Nat} (h : n ≤ countLimit - 1) : capCount n = n := Nat.min_eq_left h

theorem capCount_one : capCount 1 = 1 := capCount_of_le (by decide)

theorem capCount_mono {m n : Nat} (h : m ≤ n) : capCount m ≤ capCount n := by
  simp only [capCount, Nat.min]
  omega

theorem max_capCount (m n : Nat) : Nat.max (capCount m) (capCount n) = capCount (Nat.max m n) := by
  simp only [capCount, Nat.min, Nat.max]
  omega

/-- Saturating after each factor of a product caps the exact product: once a factor is
positive, a capped operand keeps the product at the cap or above it. -/
theorem saturatingMul_capCount (a n : Nat) : saturatingMul a (capCount n) = capCount (a * n) := by
  rw [saturatingMul_eq_capCount]
  rcases Nat.eq_zero_or_pos a with rfl | positive
  · simp only [Nat.zero_mul]
  by_cases small : n ≤ countLimit - 1
  · rw [capCount_of_le small]
  · have capped : capCount n = countLimit - 1 := Nat.min_eq_right (by omega)
    have atCap : countLimit - 1 ≤ a * (countLimit - 1) := Nat.le_mul_of_pos_left _ positive
    have aboveCap : countLimit - 1 ≤ a * n :=
      Nat.le_trans atCap (Nat.mul_le_mul_left _ (by omega))
    rw [capped]
    simp only [capCount, Nat.min]
    omega

/-! ### Paths down the statement tree -/

/-- The trips a report's loop counts give the statement numbered `id`, `1` when they give
none. -/
def tripsOf (trips : List (Nat × Nat)) (id : Nat) : Nat := (trips.lookup id).getD 1

/-- How often one run of a statement runs what it contains: a `for` loop its recorded trips,
any other statement once. -/
def Stmt.tripFactor (trips : List (Nat × Nat)) (s : Stmt) : Nat :=
  match s.kind with
  | .forLoop .. => tripsOf trips s.id
  | _ => 1

/-- The product of the trip counts of the loops on a path. -/
def Stmt.tripProduct (trips : List (Nat × Nat)) (π : List Stmt) : Nat :=
  π.foldr (fun s n => s.tripFactor trips * n) 1

@[simp] theorem Stmt.tripProduct_nil (trips : List (Nat × Nat)) : Stmt.tripProduct trips [] = 1 :=
  rfl

@[simp] theorem Stmt.tripProduct_cons (trips : List (Nat × Nat)) (s : Stmt) (π : List Stmt) :
    Stmt.tripProduct trips (s :: π) = s.tripFactor trips * Stmt.tripProduct trips π := rfl

/-- `Descends b π`: `π` is a maximal descending path of the block `b`, the statements from
one of `b` down through blocks to a statement without blocks or to an empty block. -/
inductive Stmt.Descends : List Stmt → List Stmt → Prop
  /-- A statement without blocks ends a path. -/
  | leaf {b : List Stmt} {s : Stmt} : s ∈ b → s.kind.blocks = [] → Descends b [s]
  /-- An empty block ends a path at the statement that owns it. -/
  | empty {b : List Stmt} {s : Stmt} : s ∈ b → [] ∈ s.kind.blocks → Descends b [s]
  /-- A path goes on into a block of its first statement. -/
  | nest {b inner π : List Stmt} {s : Stmt} : s ∈ b → inner ∈ s.kind.blocks →
      Descends inner π → Descends b (s :: π)

/-- A path of a statement's blocks, or the end of the path at the statement itself: it has no
blocks, or the path enters an empty one. -/
def StmtKind.Continues (k : StmtKind) (tail : List Stmt) : Prop :=
  (k.blocks = [] ∧ tail = []) ∨
    ∃ inner ∈ k.blocks, (inner = [] ∧ tail = []) ∨ Stmt.Descends inner tail

theorem Stmt.Descends.of_continues (s : Stmt) {tail : List Stmt} (h : s.kind.Continues tail) :
    Stmt.Descends [s] (s :: tail) := by
  have here : s ∈ [s] := List.mem_singleton_self s
  rcases h with ⟨none, rfl⟩ | ⟨inner, mem, ⟨rfl, rfl⟩ | down⟩
  · exact .leaf here none
  · exact .empty here mem
  · exact .nest here mem down

theorem Stmt.Descends.mono {b b' π : List Stmt} (h : Stmt.Descends b π) (sub : b ⊆ b') :
    Stmt.Descends b' π := by
  cases h with
  | leaf mem none => exact .leaf (sub mem) none
  | empty mem hollow => exact .empty (sub mem) hollow
  | nest mem block down => exact .nest (sub mem) block down

/-! ### The report's recursion -/

section Recursion

variable (trips : List (Nat × Nat))

/-- The report reads a loop's trips as a lookup of its number. -/
theorem tripsOf_eq (id : Nat) :
    ((trips.find? (·.1 == id)).map (·.2)).getD 1 = tripsOf trips id := by
  unfold tripsOf
  induction trips with
  | nil => rfl
  | cons entry rest ih =>
    obtain ⟨key, n⟩ := entry
    by_cases same : key = id
    · subst same
      simp
    · have differ : (id == key) = false := by simpa using Ne.symm same
      simp [List.lookup_cons, differ, same, ih]

/-- A statement multiplies the largest figure of its blocks by its trips. -/
theorem Stmt.repetitions_of_blockRepetitions (s : Stmt) {n : Nat}
    (h : s.kind.blockRepetitions trips = capCount n) :
    Stmt.repetitions trips s = capCount (s.tripFactor trips * n) := by
  obtain ⟨id, range, duration, k⟩ := s
  cases k
  case forLoop var ty iteration body =>
    simp only [Stmt.kind] at h
    simp only [Stmt.repetitions, Stmt.tripFactor, Stmt.kind, Stmt.id, tripsOf_eq, h,
      saturatingMul_capCount]
  all_goals
    simp only [Stmt.kind] at h
    simp only [Stmt.repetitions, Stmt.tripFactor, Stmt.kind, Nat.one_mul, h]

theorem StmtKind.blockRepetitions_of_blocks_nil :
    ∀ {k : StmtKind}, k.blocks = [] → k.blockRepetitions trips = 1
  | .subroutine .., owns | .defcal .., owns | .cal _, owns | .forLoop .., owns
  | .whileLoop .., owns | .branch _ _ (some _), owns | .branch _ _ none, owns =>
    absurd owns (List.cons_ne_nil _ _)
  | .grammar _, _ | .port _, _ | .frame .., _ | .waveform .., _ | .declare .., _ | .input .., _
  | .output .., _ | .gate .., _ | .expr _, _ | .assign .., _ | .ret _, _ | .delay .., _
  | .play .., _ | .capture .., _ | .barrier .., _ | .update .., _ => rfl

/-- Each block of a statement counts toward the largest figure of its blocks. -/
theorem StmtKind.listRepetitions_le_blockRepetitions :
    ∀ {k : StmtKind} {inner : List Stmt}, inner ∈ k.blocks →
      Stmt.listRepetitions trips inner ≤ k.blockRepetitions trips
  | .subroutine _ _ _ b, _, mem | .defcal _ _ _ _ b, _, mem | .cal b, _, mem
  | .forLoop _ _ _ b, _, mem | .whileLoop _ b, _, mem | .branch _ b none, _, mem => by
    rw [List.mem_singleton.1 mem]
    exact Nat.le_refl _
  | .branch _ t (some e), _, mem => by
    simp only [StmtKind.blocks, List.mem_cons, List.not_mem_nil, or_false] at mem
    simp only [StmtKind.blockRepetitions]
    rcases mem with rfl | rfl
    · exact Nat.le_max_left _ _
    · exact Nat.le_max_right _ _
  | .grammar _, _, mem | .port _, _, mem | .frame .., _, mem | .waveform .., _, mem
  | .declare .., _, mem | .input .., _, mem | .output .., _, mem | .gate .., _, mem
  | .expr _, _, mem | .assign .., _, mem | .ret _, _, mem | .delay .., _, mem | .play .., _, mem
  | .capture .., _, mem | .barrier .., _, mem | .update .., _, mem => absurd mem List.not_mem_nil

theorem Stmt.repetitions_le_listRepetitions {s : Stmt} :
    ∀ {b : List Stmt}, s ∈ b → Stmt.repetitions trips s ≤ Stmt.listRepetitions trips b
  | [], mem => absurd mem List.not_mem_nil
  | [t], mem => by
    rw [List.mem_singleton.1 mem]
    exact Nat.le_refl _
  | t :: u :: rest, mem => by
    simp only [Stmt.listRepetitions]
    rcases List.mem_cons.1 mem with rfl | later
    · exact Nat.le_max_left _ _
    · exact Nat.le_trans (Stmt.repetitions_le_listRepetitions later) (Nat.le_max_right _ _)

mutual

/-- A statement's figure is the capped product of one of its paths. -/
theorem Stmt.repetitions_attained : (s : Stmt) →
    ∃ π, Stmt.Descends [s] π ∧ Stmt.repetitions trips s = capCount (Stmt.tripProduct trips π)
  | .mk id range duration k => by
    obtain ⟨tail, continues, figure⟩ := StmtKind.blockRepetitions_attained k
    exact ⟨_, .of_continues (.mk id range duration k) continues,
      Stmt.repetitions_of_blockRepetitions trips (.mk id range duration k) figure⟩

/-- The largest figure of a statement's blocks is the capped product of a path of one of them,
or `1` where the path ends at the statement. -/
theorem StmtKind.blockRepetitions_attained : (k : StmtKind) →
    ∃ tail, k.Continues tail ∧ k.blockRepetitions trips = capCount (Stmt.tripProduct trips tail)
  | .subroutine _ _ _ b | .defcal _ _ _ _ b | .cal b | .forLoop _ _ _ b | .whileLoop _ b
  | .branch _ b none => by
    obtain ⟨tail, path, figure⟩ := Stmt.listRepetitions_attained b
    exact ⟨tail, .inr ⟨b, List.mem_singleton_self b, path⟩, figure⟩
  | .branch c t (some e) => by
    obtain ⟨π, path, figure⟩ := Stmt.listRepetitions_attained t
    obtain ⟨π', path', figure'⟩ := Stmt.listRepetitions_attained e
    have blocks : (StmtKind.branch c t (some e)).blocks = [t, e] := rfl
    simp only [StmtKind.blockRepetitions, figure, figure', max_capCount]
    by_cases larger : Stmt.tripProduct trips π' ≤ Stmt.tripProduct trips π
    · refine ⟨π, .inr ⟨t, by simp [blocks], path⟩, congrArg capCount ?_⟩
      simp only [Nat.max]
      omega
    · refine ⟨π', .inr ⟨e, by simp [blocks], path'⟩, congrArg capCount ?_⟩
      simp only [Nat.max]
      omega
  | .grammar _ | .port _ | .frame .. | .waveform .. | .declare .. | .input .. | .output ..
  | .gate .. | .expr _ | .assign .. | .ret _ | .delay .. | .play .. | .capture .. | .barrier ..
  | .update .. => ⟨[], .inl ⟨rfl, rfl⟩, capCount_one.symm⟩

/-- A block's figure is the capped product of one of its paths, or `1` for an empty block. -/
theorem Stmt.listRepetitions_attained : (b : List Stmt) →
    ∃ π, ((b = [] ∧ π = []) ∨ Stmt.Descends b π) ∧
      Stmt.listRepetitions trips b = capCount (Stmt.tripProduct trips π)
  | [] => ⟨[], .inl ⟨rfl, rfl⟩, capCount_one.symm⟩
  | [s] => by
    obtain ⟨π, path, figure⟩ := Stmt.repetitions_attained s
    exact ⟨π, .inr path, figure⟩
  | s :: t :: rest => by
    obtain ⟨π, path, figure⟩ := Stmt.repetitions_attained s
    obtain ⟨π', path', figure'⟩ := Stmt.listRepetitions_attained (t :: rest)
    have later : Stmt.Descends (t :: rest) π' := by
      rcases path' with ⟨nonempty, -⟩ | later
      · exact absurd nonempty (List.cons_ne_nil t rest)
      · exact later
    simp only [Stmt.listRepetitions, figure, figure', max_capCount]
    by_cases larger : Stmt.tripProduct trips π' ≤ Stmt.tripProduct trips π
    · refine ⟨π, .inr (path.mono (List.cons_subset.2 ⟨List.mem_cons_self, List.nil_subset _⟩)),
        congrArg capCount ?_⟩
      simp only [Nat.max]
      omega
    · refine ⟨π', .inr (later.mono (List.subset_cons_self s _)), congrArg capCount ?_⟩
      simp only [Nat.max]
      omega

end

theorem StmtKind.blockRepetitions_le (k : StmtKind) : k.blockRepetitions trips ≤ countLimit - 1 := by
  obtain ⟨tail, -, figure⟩ := StmtKind.blockRepetitions_attained trips k
  rw [figure]
  exact capCount_le _

/-- A statement's figure saturates the product of its trips and the largest figure of its
blocks. -/
theorem Stmt.repetitions_eq (s : Stmt) :
    Stmt.repetitions trips s = capCount (s.tripFactor trips * s.kind.blockRepetitions trips) :=
  Stmt.repetitions_of_blockRepetitions trips s
    (capCount_of_le (s.kind.blockRepetitions_le trips)).symm

/-- No path of a block has a capped product above the block's figure. -/
theorem Stmt.Descends.capCount_le {b π : List Stmt} (h : Stmt.Descends b π) :
    capCount (Stmt.tripProduct trips π) ≤ Stmt.listRepetitions trips b := by
  induction h with
  | @leaf b s mem none =>
    have figure := Stmt.repetitions_eq trips s
    rw [StmtKind.blockRepetitions_of_blocks_nil trips none] at figure
    rw [Stmt.tripProduct_cons, Stmt.tripProduct_nil, ← figure]
    exact Stmt.repetitions_le_listRepetitions trips mem
  | @empty b s mem hollow =>
    have once : 1 ≤ s.kind.blockRepetitions trips :=
      StmtKind.listRepetitions_le_blockRepetitions trips hollow
    calc capCount (Stmt.tripProduct trips [s]) = capCount (s.tripFactor trips * 1) := by
          rw [Stmt.tripProduct_cons, Stmt.tripProduct_nil]
      _ ≤ capCount (s.tripFactor trips * s.kind.blockRepetitions trips) :=
          capCount_mono (Nat.mul_le_mul_left _ once)
      _ = Stmt.repetitions trips s := (Stmt.repetitions_eq trips s).symm
      _ ≤ Stmt.listRepetitions trips b := Stmt.repetitions_le_listRepetitions trips mem
  | @nest b inner π s mem block _ ih =>
    have below : capCount (Stmt.tripProduct trips π) ≤ s.kind.blockRepetitions trips :=
      Nat.le_trans ih (StmtKind.listRepetitions_le_blockRepetitions trips block)
    calc capCount (Stmt.tripProduct trips (s :: π))
        = capCount (s.tripFactor trips * capCount (Stmt.tripProduct trips π)) := by
          rw [Stmt.tripProduct_cons, ← saturatingMul_capCount, saturatingMul_eq_capCount]
      _ ≤ capCount (s.tripFactor trips * s.kind.blockRepetitions trips) :=
          capCount_mono (Nat.mul_le_mul_left _ below)
      _ = Stmt.repetitions trips s := (Stmt.repetitions_eq trips s).symm
      _ ≤ Stmt.listRepetitions trips b := Stmt.repetitions_le_listRepetitions trips mem

end Recursion

/-! ### Reported repetitions -/

/-- The repetitions a report gives a program are the largest product of the trip counts of the
`for` loops along a maximal descending path of its statement tree (a loop without recorded trips
counting once), computed in naturals and capped at the largest 64-bit count; a program without
statements repeats once. -/
theorem ProgramReport.repetitions_eq_largest_nest (p : Program) (clocks : ClockReport) :
    (p = [] → (ProgramReport.of p clocks).repetitions = 1) ∧
    (∀ π, Stmt.Descends p π →
      capCount (Stmt.tripProduct clocks.loopTrips π) ≤ (ProgramReport.of p clocks).repetitions) ∧
    (p ≠ [] → ∃ π, Stmt.Descends p π ∧
      (ProgramReport.of p clocks).repetitions = capCount (Stmt.tripProduct clocks.loopTrips π)) := by
  refine ⟨fun empty => by rw [empty]; rfl, fun π path => path.capCount_le clocks.loopTrips,
    fun nonempty => ?_⟩
  obtain ⟨π, path, figure⟩ := Stmt.listRepetitions_attained clocks.loopTrips p
  rcases path with ⟨empty, -⟩ | path
  · exact absurd empty nonempty
  · exact ⟨π, path, figure⟩

end PulseCompiler
