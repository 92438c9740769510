import PulseCompiler.Timeline.Resolve
import Mathlib.Data.List.Nodup
import Mathlib.Data.List.Pairwise
set_option autoImplicit false

/-!
# Where a program declares and defines its symbols

A statement binds symbols of its own: a declaration its name, a `for` loop its variable, a
subroutine or defcal its name and its parameters. The walk of a block lists its statements and
the statements nested in them in pre-order, and the declarations of a program are what the
statements of its walk bind. Analysis gives every binder a symbol of its own, so in a program
whose declarations are distinct a symbol is bound by one statement (`Program.eq_of_mem_binds`).
The callables a program defines are read off the same walk.
-/

namespace PulseCompiler

theorem except_bind_eq_ok {ε α β : Type} {x : Except ε α} {f : α → Except ε β} {b : β} :
    x >>= f = .ok b ↔ ∃ a, x = .ok a ∧ f a = .ok b := by
  cases x <;> simp [bind, Except.bind]

theorem except_map_eq_ok {ε α β : Type} {x : Except ε α} {f : α → β} {b : β} :
    x.map f = .ok b ↔ ∃ a, x = .ok a ∧ f a = b := by
  cases x <;> simp [Except.map]

/-- The symbols a statement declares itself, not counting its nested blocks: the declared
name, the parameters of a subroutine or defcal, and the variable of a `for` loop. -/
def StmtKind.binds : StmtKind → List SymbolId
  | .subroutine n ps _ _ | .defcal n ps _ _ _ =>
    n.symbol.toList ++ ps.filterMap (·.name.symbol)
  | .forLoop v _ _ _ => v.symbol.toList
  | k => (k.declared.bind (·.symbol)).toList

/-- Every symbol a program declares, at any depth. -/
def Program.declarations (p : Program) : List SymbolId :=
  (Stmt.walkList p).flatMap (·.kind.binds)

/-- The symbol and callable a subroutine or defcal defines. -/
def StmtKind.definition? : StmtKind → Option (SymbolId × Callable)
  | .subroutine n ps _ b | .defcal n ps _ _ b => n.symbol.map fun s => (s, ⟨ps, b⟩)
  | _ => none

/-- The symbols of the subroutines and defcals of a program. -/
def Program.definitions (p : Program) : List SymbolId :=
  (Stmt.walkList p).filterMap fun s => s.kind.definition?.map (·.1)

/-- A program defines a callable under a symbol. -/
def Program.Defines (p : Program) (s : SymbolId) (callee : Callable) : Prop :=
  ∃ st ∈ Stmt.walkList p, st.kind.definition? = some (s, callee)

/-! ### Walks -/

theorem StmtKind.walkBlocks_eq_flatMap (k : StmtKind) :
    k.walkBlocks = k.blocks.flatMap Stmt.walkList := by
  cases k
  case branch c t e => cases e <;> simp [walkBlocks, blocks]
  all_goals simp only [walkBlocks, blocks, List.flatMap_cons, List.flatMap_nil, List.append_nil]

namespace Stmt

theorem walk_eq (s : Stmt) : s.walk = s :: s.kind.walkBlocks := by
  cases s
  rfl

@[simp] theorem walkList_nil : walkList [] = [] := rfl

@[simp] theorem walkList_cons (s : Stmt) (rest : List Stmt) :
    walkList (s :: rest) = s :: s.kind.walkBlocks ++ walkList rest := by
  rw [walkList, walk_eq, List.cons_append]

theorem walkList_append (a b : List Stmt) : walkList (a ++ b) = walkList a ++ walkList b := by
  induction a with
  | nil => rfl
  | cons s rest ih => simp [ih]

theorem mem_walkList_of_mem {s : Stmt} {b : List Stmt} (h : s ∈ b) : s ∈ walkList b := by
  induction b with
  | nil => cases h
  | cons t rest ih =>
    rcases List.mem_cons.mp h with rfl | h
    · simp
    · simp [ih h]

theorem walkBlocks_subset_of_mem {s : Stmt} {b : List Stmt} (h : s ∈ b) :
    s.kind.walkBlocks ⊆ walkList b := by
  induction b with
  | nil => cases h
  | cons t rest ih =>
    intro x hx
    rcases List.mem_cons.mp h with rfl | h
    · simp [hx]
    · simp [ih h hx]

/-- The statements of a nested block are nested in its statement. -/
theorem walkList_subset_walkBlocks {k : StmtKind} {b : List Stmt} (h : b ∈ k.blocks) :
    walkList b ⊆ k.walkBlocks := by
  rw [StmtKind.walkBlocks_eq_flatMap]
  exact fun _ hx => List.mem_flatMap_of_mem h hx

end Stmt

/-! ### One statement per symbol -/

namespace Program

variable {p : Program}

/-- Distinct entries of a list have disjoint images when the images concatenate to distinct
elements. -/
theorem eq_of_nodup_flatMap {α β : Type} {l : List α} {f : α → List β}
    (h : (l.flatMap f).Nodup) {a b : α} (ha : a ∈ l) (hb : b ∈ l) {x : β} (xa : x ∈ f a)
    (xb : x ∈ f b) : a = b := by
  by_contra hab
  have : Std.Symm (Function.onFun List.Disjoint f) := ⟨fun _ _ h _ xb xa => h xa xb⟩
  exact (List.nodup_flatMap.mp h).2.forall ha hb hab xa xb

/-- In a program with distinct declarations, a symbol is declared by one statement. -/
theorem eq_of_mem_binds (distinct : p.declarations.Nodup) {a b : Stmt} {s : SymbolId}
    (ha : a ∈ Stmt.walkList p) (hb : b ∈ Stmt.walkList p) (sa : s ∈ a.kind.binds)
    (sb : s ∈ b.kind.binds) : a = b :=
  eq_of_nodup_flatMap distinct ha hb sa sb

theorem mem_definitions {g : SymbolId} {callee : Callable} (h : p.Defines g callee) :
    g ∈ p.definitions := by
  obtain ⟨st, hst, hdef⟩ := h
  exact List.mem_filterMap.mpr ⟨st, hst, by simp [hdef]⟩

end Program

theorem StmtKind.blocks_of_definition? {k : StmtKind} {g : SymbolId} {callee : Callable}
    (h : k.definition? = some (g, callee)) : k.blocks = [callee.body] := by
  cases k <;> simp only [definition?, reduceCtorEq, Option.map_eq_some_iff, Prod.mk.injEq] at h <;>
    obtain ⟨s, hs, rfl, rfl⟩ := h <;> rfl

end PulseCompiler
