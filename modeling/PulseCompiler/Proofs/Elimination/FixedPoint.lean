import PulseCompiler.Elimination
import PulseCompiler.Proofs.Timing.Scope
set_option autoImplicit false

/-!
# Elimination reaches a fixed point

A pass of elimination only takes statements away. Each removal it reports takes at least the
statement it names (`Stmt.pruneList_size`), and a pass that reports nothing hands its program
back unchanged (`Stmt.pruneList_of_nil`). So every pass that removes something makes the program
smaller, and passes stop at the latest one pass after the program has run out of statements.

A run of passes is then determined by where it starts: a longer bound runs the same passes and
stops at the same place, a shorter one stops where it runs out (`Program.eliminateLoop_prefix`).

Main statement: under the fixed-point policy elimination converges within one pass more than the
program has statements, running it again on its result removes nothing in a single pass, and a
bound on the passes runs as many passes as it allows, giving the fixed-point result once it
allows them all (`Program.removeUnused_fixedPoint`).
-/

namespace PulseCompiler

variable (u : Usage)

/-! ### One pass -/

theorem Stmt.pruneList_cons (s : Stmt) (rest : List Stmt) :
    Stmt.pruneList u (s :: rest) = ((Stmt.prune u s).1.toList ++ (Stmt.pruneList u rest).1,
      (Stmt.prune u s).2 ++ (Stmt.pruneList u rest).2) := by
  simp only [Stmt.pruneList]
  cases (Stmt.prune u s).1 <;> rfl

theorem Stmt.prune_mk (id : Nat) (range : TextRange) (d : Option SampleRange) (kind : StmtKind) :
    Stmt.prune u (.mk id range d kind) =
      match u.removal (StmtKind.prune u kind).1 with
      | some what => (none, (StmtKind.prune u kind).2 ++ [what])
      | none => (some (.mk id range d (StmtKind.prune u kind).1), (StmtKind.prune u kind).2) := by
  simp only [Stmt.prune]
  rfl

mutual
/-- A statement from which a pass removes nothing stays as it is. -/
theorem Stmt.prune_of_nil : ∀ s : Stmt, (Stmt.prune u s).2 = [] → (Stmt.prune u s).1 = some s
  | .mk id range d kind, h => by
    rw [Stmt.prune_mk] at h ⊢
    cases hr : u.removal (StmtKind.prune u kind).1 with
    | some what => simp [hr] at h
    | none =>
      simp only [hr] at h ⊢
      rw [StmtKind.prune_of_nil kind h]

/-- A statement kind from whose blocks a pass removes nothing stays as it is. -/
theorem StmtKind.prune_of_nil : ∀ k : StmtKind, (StmtKind.prune u k).2 = [] → (StmtKind.prune u k).1 = k
  | .subroutine _ _ _ b, h | .defcal _ _ _ _ b, h | .cal b, h | .forLoop _ _ _ b, h
  | .whileLoop _ b, h => by
    simp only [StmtKind.prune] at h ⊢
    rw [Stmt.pruneList_of_nil b h]
  | .branch _ t (some e), h => by
    simp only [StmtKind.prune, List.append_eq_nil_iff] at h ⊢
    rw [Stmt.pruneList_of_nil t h.1, Stmt.pruneList_of_nil e h.2]
  | .branch _ t none, h => by
    simp only [StmtKind.prune] at h ⊢
    rw [Stmt.pruneList_of_nil t h]
  | .grammar _, _ | .port _, _ | .frame .., _ | .waveform .., _ | .declare .., _ | .input .., _
  | .output .., _ | .gate .., _ | .expr _, _ | .assign .., _ | .ret _, _ | .delay .., _
  | .play .., _ | .capture .., _ | .barrier .., _ | .update .., _ => rfl

/-- A block from which a pass removes nothing stays as it is. -/
theorem Stmt.pruneList_of_nil : ∀ b : List Stmt, (Stmt.pruneList u b).2 = [] → (Stmt.pruneList u b).1 = b
  | [], _ => rfl
  | s :: rest, h => by
    rw [Stmt.pruneList_cons, List.append_eq_nil_iff] at h
    rw [Stmt.pruneList_cons, Stmt.prune_of_nil s h.1, Stmt.pruneList_of_nil rest h.2]
    rfl
end

mutual
/-- What a pass keeps of a statement, with what it reports removed, is no more than the
statement and everything nested in it. -/
theorem Stmt.prune_size : ∀ s : Stmt,
    (Stmt.walkList (Stmt.prune u s).1.toList).length + (Stmt.prune u s).2.length ≤ s.walk.length
  | .mk id range d kind => by
    have ih := StmtKind.prune_size kind
    rw [Stmt.prune_mk]
    cases u.removal (StmtKind.prune u kind).1 with
    | some what =>
      simp only [Option.toList_none, Stmt.walkList_nil, List.length_append, Stmt.walk_eq,
        List.length_cons, List.length_nil, Stmt.kind_mk]
      omega
    | none =>
      simp only [Option.toList_some, Stmt.walkList_cons, Stmt.walkList_nil, List.append_nil,
        List.length_cons, Stmt.walk_eq, Stmt.kind_mk]
      omega

/-- What a pass keeps of the blocks of a statement kind, with what it reports removed, is no
more than the statements nested in it. -/
theorem StmtKind.prune_size : ∀ k : StmtKind,
    (StmtKind.prune u k).1.walkBlocks.length + (StmtKind.prune u k).2.length ≤ k.walkBlocks.length
  | .subroutine _ _ _ b | .defcal _ _ _ _ b | .cal b | .forLoop _ _ _ b | .whileLoop _ b => by
    simp only [StmtKind.prune, StmtKind.walkBlocks]
    exact Stmt.pruneList_size b
  | .branch _ t (some e) => by
    have ht := Stmt.pruneList_size t
    have he := Stmt.pruneList_size e
    simp only [StmtKind.prune, StmtKind.walkBlocks, List.length_append]
    omega
  | .branch _ t none => by
    have ht := Stmt.pruneList_size t
    simp only [StmtKind.prune, StmtKind.walkBlocks, List.append_nil]
    exact ht
  | .grammar _ | .port _ | .frame .. | .waveform .. | .declare .. | .input .. | .output ..
  | .gate .. | .expr _ | .assign .. | .ret _ | .delay .. | .play .. | .capture .. | .barrier ..
  | .update .. => by simp [StmtKind.prune]

/-- What a pass keeps of a block, with what it reports removed, is no more than the block. -/
theorem Stmt.pruneList_size : ∀ b : List Stmt,
    (Stmt.walkList (Stmt.pruneList u b).1).length + (Stmt.pruneList u b).2.length ≤
      (Stmt.walkList b).length
  | [] => by simp [Stmt.pruneList]
  | s :: rest => by
    have hs := Stmt.prune_size s
    have hrest := Stmt.pruneList_size rest
    rw [Stmt.pruneList_cons, Stmt.walkList_append]
    simp only [Stmt.walkList_cons, List.length_append, List.length_cons, Stmt.walk_eq] at hs ⊢
    omega
end

namespace Program

theorem eliminateOnce_of_nil {p : Program} (h : (eliminateOnce p).2 = []) :
    (eliminateOnce p).1 = p :=
  Stmt.pruneList_of_nil _ p h

/-- Every removal a pass reports shrinks the program by at least one statement. -/
theorem eliminateOnce_size (p : Program) :
    (eliminateOnce p).1.size + (eliminateOnce p).2.length ≤ p.size :=
  Stmt.pruneList_size _ p

/-! ### Runs of passes -/

theorem eliminateLoop_succ (n : Nat) (p : Program) (r : EliminationReport) :
    eliminateLoop (n + 1) (p, r) =
      if (eliminateOnce p).2.isEmpty then
        ((eliminateOnce p).1, { r with passes := r.passes + 1, converged := true })
      else
        eliminateLoop n ((eliminateOnce p).1,
          { r with passes := r.passes + 1, removed := r.removed ++ (eliminateOnce p).2 }) := by
  simp only [eliminateLoop]

/-- A run with room for more passes than its program has statements converges. -/
theorem eliminateLoop_converged :
    ∀ (n : Nat) (acc : Program × EliminationReport), acc.1.size < n →
      (eliminateLoop n acc).2.converged = true
  | 0, _, h => absurd h (Nat.not_lt_zero _)
  | n + 1, (p, r), h => by
    have shrinks := eliminateOnce_size p
    rw [eliminateLoop_succ]
    split
    · rfl
    · next removed =>
      apply eliminateLoop_converged n
      have : (eliminateOnce p).2.length ≠ 0 := by simpa using removed
      simp only at h ⊢
      omega

theorem passes_le_eliminateLoop :
    ∀ (n : Nat) (acc : Program × EliminationReport), acc.2.passes ≤ (eliminateLoop n acc).2.passes
  | 0, _ => Nat.le_refl _
  | n + 1, (p, r) => by
    rw [eliminateLoop_succ]
    split
    · exact Nat.le_succ _
    · have more := passes_le_eliminateLoop n ((eliminateOnce p).1,
        { r with passes := r.passes + 1, removed := r.removed ++ (eliminateOnce p).2 })
      dsimp only at more ⊢
      omega

/-- A run that converges ends on a program that one more pass leaves as it is. -/
theorem eliminateLoop_settled :
    ∀ (n : Nat) (acc : Program × EliminationReport), acc.2.converged = false →
      (eliminateLoop n acc).2.converged = true →
      eliminateOnce (eliminateLoop n acc).1 = ((eliminateLoop n acc).1, [])
  | 0, _, fresh, done => absurd done (by simp [eliminateLoop, fresh])
  | n + 1, (p, r), fresh, done => by
    rw [eliminateLoop_succ] at done ⊢
    split
    · next quiet =>
      have nothing : (eliminateOnce p).2 = [] := List.isEmpty_iff.mp quiet
      have same := eliminateOnce_of_nil nothing
      rw [same]
      exact Prod.ext same nothing
    · next loud =>
      rw [if_neg loud] at done
      exact eliminateLoop_settled n _ (by exact fresh) done

/-- A run that converges after some passes is where every run from the same start goes: a bound
of `m` passes runs `m` of them if the run needs more, and the whole run otherwise. -/
theorem eliminateLoop_prefix :
    ∀ (n : Nat) (acc : Program × EliminationReport), acc.2.converged = false →
      (eliminateLoop n acc).2.converged = true → ∀ m : Nat,
      (eliminateLoop m acc).2.passes =
          acc.2.passes + min m ((eliminateLoop n acc).2.passes - acc.2.passes) ∧
        ((eliminateLoop n acc).2.passes - acc.2.passes ≤ m → eliminateLoop m acc = eliminateLoop n acc)
  | 0, _, fresh, done, _ => absurd done (by simp [eliminateLoop, fresh])
  | n + 1, (p, r), fresh, done, m => by
    rw [eliminateLoop_succ] at done ⊢
    split
    · next quiet =>
      cases m with
      | zero => simp [eliminateLoop]
      | succ m =>
        rw [eliminateLoop_succ, if_pos quiet]
        simp
    · next loud =>
      rw [if_neg loud] at done
      have later := eliminateLoop_prefix n _ (by exact fresh) done
      have more := passes_le_eliminateLoop n ((eliminateOnce p).1,
        { r with passes := r.passes + 1, removed := r.removed ++ (eliminateOnce p).2 })
      dsimp only at more
      cases m with
      | zero =>
        simp only [eliminateLoop, Nat.zero_min, Nat.add_zero, true_and]
        omega
      | succ m =>
        rw [eliminateLoop_succ, if_neg loud]
        obtain ⟨passes, same⟩ := later m
        dsimp only at passes same ⊢
        refine ⟨by omega, fun le => same (by omega)⟩

/-- Elimination under the fixed-point policy converges within one pass more than the program has
statements. Running it again on its result makes one pass, which removes nothing. A bound of `k`
passes runs `k` of them or all the passes of the fixed-point run, whichever are fewer, and gives
the fixed-point result once it allows them all. -/
theorem removeUnused_fixedPoint (p : Program) :
    (p.removeUnused .fixedPoint).2.passes ≤ p.size + 1 ∧
    (p.removeUnused .fixedPoint).2.converged = true ∧
    (p.removeUnused .fixedPoint).1.removeUnused .fixedPoint =
      ((p.removeUnused .fixedPoint).1, { passes := 1, removed := [], converged := true }) ∧
    ∀ k : Nat, (p.removeUnused (.bounded k)).2.passes = min k (p.removeUnused .fixedPoint).2.passes ∧
      ((p.removeUnused .fixedPoint).2.passes ≤ k →
        p.removeUnused (.bounded k) = p.removeUnused .fixedPoint) := by
  have fresh : ((p, {}) : Program × EliminationReport).2.converged = false := rfl
  have done := eliminateLoop_converged (p.size + 1) (p, {}) (Nat.lt_succ_self _)
  have runs := eliminateLoop_prefix (p.size + 1) (p, {}) fresh done
  have settled := eliminateLoop_settled (p.size + 1) (p, {}) fresh done
  simp only [removeUnused]
  refine ⟨?_, done, ?_, fun k => ?_⟩
  · have bounded := (runs (p.size + 1)).1
    simp only [Nat.zero_add, Nat.sub_zero] at bounded
    omega
  · rw [eliminateLoop_succ, settled]
    rfl
  · simpa using runs k

/-- `y` is read by nothing and `x` only by `y`: the first pass removes `y`, the second `x`, and
the third finds nothing left to remove. -/
example : (Program.removeUnused .fixedPoint
    [.ofKind (.declare ⟨"x", {}, some 0⟩ (.int none false) none),
     .ofKind (.declare ⟨"y", {}, some 1⟩ (.int none false) (some (.ident ⟨"x", {}, some 0⟩)))]).2 =
    { passes := 3, removed := ["y", "x"], converged := true } := by decide

end Program

end PulseCompiler
