import PulseCompiler.Analysis.Scope
set_option autoImplicit false

/-!
# The scope table as a state machine

The analyzer drives the scope table through six operations: opening and closing a scope,
declaring a name, opening and closing a `cal` block, and looking a name up.
`SymbolTable.perform` runs one of them as a client of the table sees it, giving the answer and
the table afterwards; an operation that fails gives no new table, so the client goes on with
the one it had. `SymbolTable.performAll` runs a sequence of them.

`SymbolTable.WellFormed` is what every table reached from `SymbolTable.initial` satisfies: the
global scope is at the bottom and is the only global scope, a scope binds a name at most once,
and every binding names a symbol of that name declared in a scope of that kind. Each operation
keeps it (`perform_wellFormed`). A lookup finds the binding of the innermost scope that binds
the name (`resolve_eq_ok_iff`), and on a well-formed table it fails only when no open scope
binds the name (`resolve_eq_error_iff`). Symbols are numbered in order of declaration, the
predefined constants first, so the `k`-th successful declaration gets number `k` and no number
is given twice (`performAll_declaredIds`). `reachable_invariant` gathers these facts for every
run from the initial table.
-/

namespace PulseCompiler

namespace Scope

theorem find?_eq_none_iff (s : Scope) (name : String) :
    s.find? name = none ↔ name ∉ s.bindings.map Prod.fst := by
  simp only [Scope.find?, Option.map_eq_none_iff, List.find?_eq_none, beq_iff_eq, List.mem_map,
    not_exists, not_and]

theorem mem_of_find?_eq_some {s : Scope} {name : String} {id : SymbolId}
    (h : s.find? name = some id) : (name, id) ∈ s.bindings := by
  obtain ⟨b, hb, rfl⟩ := Option.map_eq_some_iff.1 h
  have same : b.1 = name := by simpa using List.find?_some hb
  rw [← same]
  exact List.mem_of_find?_eq_some hb

end Scope

namespace SymbolTable

/-- The open scopes, innermost first; the global scope is the last. -/
def scopes (t : SymbolTable) : List Scope := t.inner ++ [t.global]

/-- The table before anything is declared. -/
def empty : SymbolTable := ⟨⟨.global, []⟩, [], #[], 0⟩

variable {t t' : SymbolTable}

theorem get?_eq (t : SymbolTable) (id : SymbolId) : t.get? id = t.symbols[id]? := rfl

theorem scopes_eq_current_cons (t : SymbolTable) : t.scopes = t.current :: t.scopes.tail := by
  cases h : t.inner <;> simp [scopes, current, h]

theorem current_mem_scopes (t : SymbolTable) : t.current ∈ t.scopes := by
  rw [scopes_eq_current_cons]
  exact List.mem_cons_self

/-! ### The table after a declaration -/

section Declared

variable (t : SymbolTable) (sym : Symbol) (b : String × SymbolId)

@[simp] theorem setCurrent_symbols (s : Scope) : (t.setCurrent s).symbols = t.symbols := by
  unfold setCurrent; split <;> rfl

/-- A declaration replaces the innermost scope by one more binding. -/
theorem scopes_declared :
    ({ t with symbols := t.symbols.push sym }.setCurrent
      { t.current with bindings := b :: t.current.bindings }).scopes =
      { t.current with bindings := b :: t.current.bindings } :: t.scopes.tail := by
  unfold setCurrent current
  split <;> simp_all [scopes]

theorem global_kind_declared :
    ({ t with symbols := t.symbols.push sym }.setCurrent
      { t.current with bindings := b :: t.current.bindings }).global.kind = t.global.kind := by
  unfold setCurrent current
  split <;> simp_all

theorem inner_kinds_declared :
    ({ t with symbols := t.symbols.push sym }.setCurrent
      { t.current with bindings := b :: t.current.bindings }).inner.map Scope.kind =
      t.inner.map Scope.kind := by
  unfold setCurrent current
  split <;> simp_all

theorem calibrationDepth_declared :
    ({ t with symbols := t.symbols.push sym }.setCurrent
      { t.current with bindings := b :: t.current.bindings }).calibrationDepth =
      t.calibrationDepth := by
  unfold setCurrent
  split <;> rfl

theorem symbols_declared :
    ({ t with symbols := t.symbols.push sym }.setCurrent
      { t.current with bindings := b :: t.current.bindings }).symbols = t.symbols.push sym := by
  simp

end Declared

/-! ### The invariant -/

/-- What every table reached from the initial one satisfies. -/
structure WellFormed (t : SymbolTable) : Prop where
  /-- The bottom scope is the global scope, -/
  global_kind : t.global.kind = .global
  /-- and no other open scope is global. -/
  inner_kinds : ScopeKind.global ∉ t.inner.map Scope.kind
  /-- A scope binds each name at most once. -/
  nodup : ∀ s ∈ t.scopes, (s.bindings.map Prod.fst).Nodup
  /-- A binding names a symbol of the bound name, declared in a scope of the binding scope's
  kind; in particular its number is below the number of symbols. -/
  bound : ∀ s ∈ t.scopes, ∀ b ∈ s.bindings,
    ∃ sym, t.get? b.2 = some sym ∧ sym.name = b.1 ∧ sym.scope = s.kind

theorem empty_wellFormed : empty.WellFormed where
  global_kind := rfl
  inner_kinds := by simp [empty]
  nodup := by simp [empty, scopes]
  bound := by simp [empty, scopes]

/-- A table with the same global scope and symbols, whose other scopes are open scopes of the
old table or new empty scopes that are not global, is well formed with the old one. -/
theorem WellFormed.of_inner (h : t.WellFormed) (global : t'.global = t.global)
    (symbols : t'.symbols = t.symbols)
    (inner : ∀ s ∈ t'.inner, s ∈ t.inner ∨ (s.kind ≠ .global ∧ s.bindings = [])) :
    t'.WellFormed := by
  have scope : ∀ s ∈ t'.scopes, s ∈ t.scopes ∨ s.bindings = [] := by
    intro s hs
    rcases List.mem_append.1 hs with hs | hs
    · rcases inner s hs with old | ⟨-, fresh⟩
      · exact .inl (List.mem_append_left _ old)
      · exact .inr fresh
    · rw [List.mem_singleton.1 hs, global]
      exact .inl (List.mem_append_right _ (List.mem_singleton_self _))
  constructor
  · rw [global]; exact h.global_kind
  · intro hk
    obtain ⟨s, hs, hkind⟩ := List.mem_map.1 hk
    rcases inner s hs with old | ⟨notGlobal, -⟩
    · exact h.inner_kinds (List.mem_map.2 ⟨s, old, hkind⟩)
    · exact notGlobal hkind
  · intro s hs
    rcases scope s hs with old | fresh
    · exact h.nodup s old
    · simp [fresh]
  · intro s hs b hb
    rcases scope s hs with old | fresh
    · rw [get?_eq, symbols]; exact h.bound s old b hb
    · simp [fresh] at hb

/-! ### Declaring a name -/

/-- A declaration succeeds exactly when the innermost scope does not bind the name. The new
symbol gets the next number and is bound in the innermost scope. -/
theorem declare_eq_ok_iff {name : String} {kind : SymbolKind} {id : SymbolId} :
    t.declare name kind = .ok (id, t') ↔ t.current.find? name = none ∧ id = t.symbols.size ∧
      t' = { t with symbols := t.symbols.push ⟨name, kind, t.current.kind⟩ }.setCurrent
        { t.current with bindings := (name, id) :: t.current.bindings } := by
  unfold declare
  dsimp only
  split
  · rename_i bound
    simp only [reduceCtorEq, false_iff, not_and]
    intro free
    simp [free] at bound
  · rename_i free
    simp only [Option.isSome_iff_ne_none, ne_eq, Decidable.not_not] at free
    simp only [Except.ok.injEq, Prod.mk.injEq, free, true_and]
    constructor
    · rintro ⟨rfl, rfl⟩; exact ⟨rfl, rfl⟩
    · rintro ⟨rfl, rfl⟩; exact ⟨rfl, rfl⟩

/-- A declaration fails, as already bound, exactly when the innermost scope binds the name. -/
theorem declare_eq_error_iff {name : String} {kind : SymbolKind} {e : SymbolError} :
    t.declare name kind = .error e ↔ e = .alreadyBound ∧ (t.current.find? name).isSome := by
  unfold declare
  dsimp only
  split
  · rename_i bound
    simp only [Except.error.injEq, bound, and_true]
    exact eq_comm
  · rename_i free
    simp [free]

theorem get?_push {x : Symbol} {id : SymbolId} {sym : Symbol} (h : t.get? id = some sym) :
    (t.symbols.push x)[id]? = some sym := by
  have below : id < t.symbols.size := by
    simp only [get?_eq] at h
    exact (Array.getElem?_eq_some_iff.1 h).1
  rw [Array.getElem?_push, if_neg (Nat.ne_of_lt below)]
  exact h

theorem WellFormed.declare (h : t.WellFormed) {name : String} {kind : SymbolKind}
    {id : SymbolId} (hd : t.declare name kind = .ok (id, t')) : t'.WellFormed := by
  obtain ⟨free, rfl, rfl⟩ := declare_eq_ok_iff.1 hd
  have current := current_mem_scopes t
  constructor
  · rw [global_kind_declared]; exact h.global_kind
  · rw [inner_kinds_declared]; exact h.inner_kinds
  · intro s hs
    rw [scopes_declared] at hs
    rcases List.mem_cons.1 hs with rfl | hs
    · simp only [List.map_cons, List.nodup_cons]
      exact ⟨(Scope.find?_eq_none_iff _ _).1 free, h.nodup _ current⟩
    · exact h.nodup s (List.mem_of_mem_tail hs)
  · intro s hs b hb
    rw [scopes_declared] at hs
    simp only [get?_eq, symbols_declared]
    rcases List.mem_cons.1 hs with rfl | hs
    · rcases List.mem_cons.1 hb with rfl | hb
      · exact ⟨⟨name, kind, t.current.kind⟩, by simp, rfl, rfl⟩
      · obtain ⟨sym, hget, hname, hscope⟩ := h.bound _ current b hb
        exact ⟨sym, get?_push hget, hname, hscope⟩
    · obtain ⟨sym, hget, hname, hscope⟩ := h.bound s (List.mem_of_mem_tail hs) b hb
      exact ⟨sym, get?_push hget, hname, hscope⟩

/-! ### Opening and closing scopes and `cal` blocks -/

theorem enter_eq_some_iff {kind : ScopeKind} :
    t.enter kind = some t' ↔ kind ≠ .global ∧ t' = { t with inner := ⟨kind, []⟩ :: t.inner } := by
  unfold enter
  split
  · rename_i global
    simp only [beq_iff_eq] at global
    simp [global]
  · rename_i other
    simp only [beq_iff_eq] at other
    simp only [Option.some.injEq, ne_eq, other, not_false_eq_true, true_and]
    exact eq_comm

theorem leave_eq_ok_iff {kind : ScopeKind} :
    t.leave = .ok (kind, t') ↔ ∃ s rest, t.inner = s :: rest ∧ kind = s.kind ∧
      t' = { t with inner := rest } := by
  unfold leave
  split
  · rename_i none
    simp [none]
  · rename_i s rest some
    simp only [Except.ok.injEq, Prod.mk.injEq, some, List.cons.injEq]
    constructor
    · rintro ⟨rfl, rfl⟩
      exact ⟨s, rest, ⟨rfl, rfl⟩, rfl, rfl⟩
    · rintro ⟨s', rest', ⟨rfl, rfl⟩, rfl, rfl⟩
      exact ⟨rfl, rfl⟩

theorem leave_eq_error_iff {e : SymbolError} :
    t.leave = .error e ↔ e = .scopeUnderflow ∧ t.inner = [] := by
  unfold leave
  split
  · rename_i none
    simp [none, eq_comm]
  · rename_i some
    simp [some]

theorem leaveCalibration_eq_ok_iff :
    t.leaveCalibration = .ok t' ↔ ∃ n, t.calibrationDepth = n + 1 ∧
      t' = { t with calibrationDepth := n } := by
  unfold leaveCalibration
  split
  · rename_i zero
    simp [zero]
  · rename_i n succ
    simp only [Except.ok.injEq, succ]
    constructor
    · rintro rfl
      exact ⟨n, rfl, rfl⟩
    · rintro ⟨m, same, rfl⟩
      rw [Nat.succ.inj same]

theorem leaveCalibration_eq_error_iff {e : SymbolError} :
    t.leaveCalibration = .error e ↔ e = .scopeUnderflow ∧ t.calibrationDepth = 0 := by
  unfold leaveCalibration
  split
  · rename_i zero
    simp [zero, eq_comm]
  · rename_i n succ
    simp [succ]

theorem WellFormed.enter (h : t.WellFormed) {kind : ScopeKind} (he : t.enter kind = some t') :
    t'.WellFormed := by
  obtain ⟨notGlobal, rfl⟩ := enter_eq_some_iff.1 he
  refine h.of_inner rfl rfl fun s hs => ?_
  rcases List.mem_cons.1 hs with rfl | old
  · exact .inr ⟨notGlobal, rfl⟩
  · exact .inl old

theorem WellFormed.leave (h : t.WellFormed) {kind : ScopeKind} (hl : t.leave = .ok (kind, t')) :
    t'.WellFormed := by
  obtain ⟨s, rest, hinner, -, rfl⟩ := leave_eq_ok_iff.1 hl
  exact h.of_inner rfl rfl fun s' hs => .inl (by rw [hinner]; exact List.mem_cons_of_mem _ hs)

theorem WellFormed.enterCalibration (h : t.WellFormed) : t.enterCalibration.WellFormed :=
  h.of_inner rfl rfl fun _ hs => .inl hs

theorem WellFormed.leaveCalibration (h : t.WellFormed) (hl : t.leaveCalibration = .ok t') :
    t'.WellFormed := by
  obtain ⟨n, -, rfl⟩ := leaveCalibration_eq_ok_iff.1 hl
  exact h.of_inner rfl rfl fun _ hs => .inl hs

/-! ### The shape of the table

What placement depends on: the kinds of the open scopes and the number of open `cal` blocks.
Declarations keep it, and only opening and closing scopes and `cal` blocks change it. -/

/-- The kinds of the open scopes, innermost first, and the number of open `cal` blocks. -/
def shape (t : SymbolTable) : List ScopeKind × Nat := (t.scopes.map Scope.kind, t.calibrationDepth)

theorem shape_declare {name : String} {kind : SymbolKind} {id : SymbolId}
    (hd : t.declare name kind = .ok (id, t')) : t'.shape = t.shape := by
  obtain ⟨-, rfl, rfl⟩ := declare_eq_ok_iff.1 hd
  have inner := inner_kinds_declared t ⟨name, kind, t.current.kind⟩ (name, t.symbols.size)
  have global := global_kind_declared t ⟨name, kind, t.current.kind⟩ (name, t.symbols.size)
  simp only [shape, scopes, List.map_append, List.map_cons, List.map_nil, inner, global,
    calibrationDepth_declared]

theorem shape_enter {kind : ScopeKind} (he : t.enter kind = some t') :
    t'.shape = (kind :: t.shape.1, t.shape.2) := by
  obtain ⟨-, rfl⟩ := enter_eq_some_iff.1 he
  rfl

theorem shape_leave {kind : ScopeKind} (hl : t.leave = .ok (kind, t')) :
    t.shape = (kind :: t'.shape.1, t'.shape.2) := by
  obtain ⟨s, rest, hinner, rfl, rfl⟩ := leave_eq_ok_iff.1 hl
  simp [shape, scopes, hinner]

theorem shape_enterCalibration (t : SymbolTable) :
    t.enterCalibration.shape = (t.shape.1, t.shape.2 + 1) := rfl

theorem shape_leaveCalibration (hl : t.leaveCalibration = .ok t') :
    t.shape = (t'.shape.1, t'.shape.2 + 1) := by
  obtain ⟨n, depth, rfl⟩ := leaveCalibration_eq_ok_iff.1 hl
  simp [shape, scopes, depth]

/-! ### Looking a name up -/

/-- `r` is the binding of `name` in the innermost open scope that binds it: no scope inside
that one binds the name, `r.symbol` is the symbol of the bound number, and the level is the
number of scopes below, zero for the global scope. -/
def Innermost (t : SymbolTable) (name : String) (r : Resolution) : Prop :=
  ∃ inside s below, t.scopes = inside ++ s :: below ∧ (∀ s' ∈ inside, s'.find? name = none) ∧
    s.find? name = some r.id ∧ t.get? r.id = some r.symbol ∧ r.level = below.length

/-- The search through a list of scopes whose first one sits at level `length - 1`. -/
theorem resolve_go_eq_ok_iff (t : SymbolTable) (name : String) (ss : List Scope)
    (r : Resolution) :
    resolve.go t name ss (ss.length - 1) = .ok r ↔
      ∃ inside s below, ss = inside ++ s :: below ∧ (∀ s' ∈ inside, s'.find? name = none) ∧
        s.find? name = some r.id ∧ t.get? r.id = some r.symbol ∧ r.level = below.length := by
  induction ss with
  | nil => simp [resolve.go]
  | cons s rest ih =>
    simp only [List.length_cons, Nat.add_sub_cancel, resolve.go]
    cases found : s.find? name with
    | some id =>
      have first : ∀ inside s' below, s :: rest = inside ++ s' :: below →
          (∀ s'' ∈ inside, s''.find? name = none) → inside = [] ∧ s' = s ∧ below = rest := by
        intro inside s' below split outside
        rcases List.cons_eq_append_iff.1 split with ⟨rfl, same⟩ | ⟨inside', rfl, -⟩
        · simp only [List.cons.injEq] at same
          exact ⟨rfl, same.1, same.2⟩
        · simp [outside s List.mem_cons_self] at found
      constructor
      · intro hr
        cases hget : t.get? id with
        | none => simp [hget] at hr
        | some sym =>
          simp only [hget, Except.ok.injEq] at hr
          subst hr
          exact ⟨[], s, rest, rfl, by simp, found, hget, rfl⟩
      · rintro ⟨inside, s', below, split, outside, hs', hget, hlevel⟩
        obtain ⟨rfl, rfl, rfl⟩ := first inside s' below split outside
        rw [found, Option.some.injEq] at hs'
        obtain ⟨rid, sym, level⟩ := r
        simp only at hs' hget hlevel
        subst hs' hlevel
        simp only [hget]
    | none =>
      rw [ih]
      constructor
      · rintro ⟨inside, s', below, rfl, outside, hs', hget, hlevel⟩
        refine ⟨s :: inside, s', below, rfl, ?_, hs', hget, hlevel⟩
        intro s'' hs''
        rcases List.mem_cons.1 hs'' with rfl | hs''
        · exact found
        · exact outside s'' hs''
      · rintro ⟨inside, s', below, split, outside, hs', hget, hlevel⟩
        rcases List.cons_eq_append_iff.1 split with ⟨rfl, same⟩ | ⟨inside', rfl, rest_eq⟩
        · simp only [List.cons.injEq] at same
          rw [same.1, found] at hs'
          exact absurd hs' (by simp)
        · exact ⟨inside', s', below, rest_eq, fun s'' hs'' =>
            outside s'' (List.mem_cons_of_mem _ hs''), hs', hget, hlevel⟩

/-- A lookup finds the binding of the innermost open scope that binds the name. -/
theorem resolve_eq_ok_iff {name : String} {r : Resolution} :
    t.resolve name = .ok r ↔ t.Innermost name r := by
  have start : t.inner.length = t.scopes.length - 1 := by simp [scopes]
  unfold resolve Innermost
  rw [start]
  exact resolve_go_eq_ok_iff t name t.scopes r

/-- A search through scopes whose every binding numbers a symbol fails only when none of them
binds the name. -/
theorem resolve_go_eq_error_iff (t : SymbolTable) (name : String) (ss : List Scope) (level : Nat)
    (bound : ∀ s ∈ ss, ∀ id, s.find? name = some id → (t.get? id).isSome)
    {e : SymbolError} :
    resolve.go t name ss level = .error e ↔ e = .missingBinding ∧ ∀ s ∈ ss, s.find? name = none := by
  induction ss generalizing level with
  | nil => simp [resolve.go, eq_comm]
  | cons s rest ih =>
    simp only [resolve.go, List.mem_cons, forall_eq_or_imp]
    cases found : s.find? name with
    | some id =>
      obtain ⟨sym, hget⟩ := Option.isSome_iff_exists.1 (bound s List.mem_cons_self id found)
      simp [hget]
    | none =>
      simp only [true_and]
      exact ih (level - 1) fun s' hs' => bound s' (List.mem_cons_of_mem _ hs')

/-- On a well-formed table a lookup fails only when no open scope binds the name: it never
meets a number without a symbol. -/
theorem WellFormed.resolve_eq_error_iff (h : t.WellFormed) {name : String} {e : SymbolError} :
    t.resolve name = .error e ↔ e = .missingBinding ∧ ∀ s ∈ t.scopes, s.find? name = none := by
  unfold resolve
  apply resolve_go_eq_error_iff
  intro s hs id found
  obtain ⟨sym, hget, -, -⟩ := h.bound s hs _ (Scope.mem_of_find?_eq_some found)
  simp [hget]

/-! ### Runs of operations -/

/-- An operation on the scope table. -/
inductive Op where
  | enter (kind : ScopeKind)
  | leave
  | declare (name : String) (kind : SymbolKind)
  | enterCalibration
  | leaveCalibration
  | resolve (name : String)

/-- What an operation answers. A second global scope is refused. -/
inductive Reply where
  | done
  | left (kind : ScopeKind)
  | declared (id : SymbolId)
  | resolved (r : Resolution)
  | failed (e : SymbolError)
  | refused

/-- The number a successful declaration answered. -/
def Reply.declaredId? : Reply → Option SymbolId
  | .declared id => some id
  | _ => none

/-- Performs an operation: its answer and the table afterwards, the same table when the
operation fails. -/
def perform (t : SymbolTable) : Op → Reply × SymbolTable
  | .enter kind =>
    match t.enter kind with
    | some t' => (.done, t')
    | none => (.refused, t)
  | .leave =>
    match t.leave with
    | .ok (kind, t') => (.left kind, t')
    | .error e => (.failed e, t)
  | .declare name kind =>
    match t.declare name kind with
    | .ok (id, t') => (.declared id, t')
    | .error e => (.failed e, t)
  | .enterCalibration => (.done, t.enterCalibration)
  | .leaveCalibration =>
    match t.leaveCalibration with
    | .ok t' => (.done, t')
    | .error e => (.failed e, t)
  | .resolve name =>
    match t.resolve name with
    | .ok r => (.resolved r, t)
    | .error e => (.failed e, t)

/-- Performs operations in order: their answers and the last table. -/
def performAll (t : SymbolTable) : List Op → List Reply × SymbolTable
  | [] => ([], t)
  | op :: ops =>
    let step := t.perform op
    let rest := step.2.performAll ops
    (step.1 :: rest.1, rest.2)

@[simp] theorem performAll_nil (t : SymbolTable) : t.performAll [] = ([], t) := rfl

@[simp] theorem performAll_cons (t : SymbolTable) (op : Op) (ops : List Op) :
    t.performAll (op :: ops) =
      ((t.perform op).1 :: ((t.perform op).2.performAll ops).1,
        ((t.perform op).2.performAll ops).2) := rfl

theorem perform_failed (t : SymbolTable) (op : Op) {e : SymbolError}
    (h : (t.perform op).1 = .failed e) : (t.perform op).2 = t := by
  cases op with
  | enterCalibration => simp [perform] at h
  | _ =>
    simp only [perform] at h ⊢
    split <;> simp_all

theorem WellFormed.perform (h : t.WellFormed) (op : Op) : (t.perform op).2.WellFormed := by
  cases op with
  | enter kind =>
    simp only [SymbolTable.perform]
    split
    · exact h.enter ‹_›
    · exact h
  | leave =>
    simp only [SymbolTable.perform]
    split
    · exact h.leave ‹_›
    · exact h
  | declare name kind =>
    simp only [SymbolTable.perform]
    split
    · exact h.declare ‹_›
    · exact h
  | enterCalibration => exact h.enterCalibration
  | leaveCalibration =>
    simp only [SymbolTable.perform]
    split
    · exact h.leaveCalibration ‹_›
    · exact h
  | resolve name =>
    simp only [SymbolTable.perform]
    split <;> exact h

theorem WellFormed.performAll (h : t.WellFormed) (ops : List Op) :
    (t.performAll ops).2.WellFormed := by
  induction ops generalizing t with
  | nil => exact h
  | cons op ops ih => exact ih (h.perform op)

/-- A declaration answers the number of symbols before it and adds one symbol. -/
theorem perform_declared {op : Op} {id : SymbolId} (h : (t.perform op).1.declaredId? = some id) :
    id = t.symbols.size ∧ (t.perform op).2.symbols.size = t.symbols.size + 1 := by
  cases op with
  | declare name kind =>
    simp only [perform] at h ⊢
    split at h
    · rename_i id' t' hd
      obtain ⟨-, rfl, rfl⟩ := declare_eq_ok_iff.1 hd
      simp only [Reply.declaredId?, Option.some.injEq] at h
      simp [h]
    · simp [Reply.declaredId?] at h
  | _ =>
    simp only [perform] at h
    (try split at h) <;> simp [Reply.declaredId?] at h

theorem perform_size {op : Op} (h : (t.perform op).1.declaredId? = none) :
    (t.perform op).2.symbols.size = t.symbols.size := by
  cases op with
  | declare name kind =>
    simp only [perform] at h ⊢
    split at h
    · simp [Reply.declaredId?] at h
    · rfl
  | enter kind =>
    simp only [perform]
    split
    · rename_i he; rw [(enter_eq_some_iff.1 he).2]
    · rfl
  | leave =>
    simp only [perform]
    split
    · rename_i hl; obtain ⟨_, _, _, _, rfl⟩ := leave_eq_ok_iff.1 hl; rfl
    · rfl
  | enterCalibration => rfl
  | leaveCalibration =>
    simp only [perform]
    split
    · rename_i hl; obtain ⟨_, _, rfl⟩ := leaveCalibration_eq_ok_iff.1 hl; rfl
    · rfl
  | resolve name =>
    simp only [perform]
    split <;> rfl

/-- The successful declarations of a run answer the consecutive numbers from the number of
symbols at its start, one per symbol added. -/
theorem performAll_declaredIds (t : SymbolTable) (ops : List Op) :
    (t.performAll ops).1.filterMap Reply.declaredId? =
      List.range' t.symbols.size ((t.performAll ops).2.symbols.size - t.symbols.size) ∧
    t.symbols.size ≤ (t.performAll ops).2.symbols.size := by
  induction ops generalizing t with
  | nil => simp
  | cons op ops ih =>
    obtain ⟨ids, grows⟩ := ih (t.perform op).2
    simp only [performAll_cons, List.filterMap_cons]
    cases hid : (t.perform op).1.declaredId? with
    | none =>
      rw [perform_size hid] at ids grows
      exact ⟨ids, grows⟩
    | some id =>
      obtain ⟨rfl, size⟩ := perform_declared hid
      rw [size] at ids grows
      refine ⟨?_, by omega⟩
      have count : ((t.perform op).2.performAll ops).2.symbols.size - t.symbols.size =
          ((t.perform op).2.performAll ops).2.symbols.size - (t.symbols.size + 1) + 1 := by
        omega
      simp only [ids, count, List.range'_succ]

/-! ### The initial table -/

/-- The declarations of the predefined constants. -/
def builtinDeclarations : List Op := builtinConstants.map fun (n, _) => .declare n .builtin

/-- The initial table is the empty one after the declarations of the predefined constants. -/
theorem initial_eq_performAll : initial = (empty.performAll builtinDeclarations).2 := by
  have fold : ∀ (cs : List (String × Float)) (t : SymbolTable),
      cs.foldl (fun t (n, _) => match t.declare n .builtin with
        | .ok (_, t') => t'
        | .error _ => t) t =
      (t.performAll (cs.map fun (n, _) => .declare n .builtin)).2 := by
    intro cs
    induction cs with
    | nil => intro t; rfl
    | cons c cs ih =>
      intro t
      simp only [List.foldl_cons, List.map_cons, performAll_cons, perform]
      rw [ih]
      split <;> simp_all
  exact fold builtinConstants empty

theorem initial_wellFormed : initial.WellFormed := by
  rw [initial_eq_performAll]
  exact empty_wellFormed.performAll _

/-- The predefined constants are the symbols numbered zero to five, in their order. -/
theorem initial_symbols :
    initial.symbols.toList.map Symbol.name = builtinConstants.map Prod.fst := by
  decide

/-! ### Every run from the initial table -/

/-- Every table reached from the initial one by any operations is well formed; its symbols are
the predefined constants followed by one symbol per successful declaration, numbered in order;
a lookup finds the binding of the innermost open scope that binds the name and fails only when
none does; a declaration fails, as already bound, exactly when the innermost scope binds the
name; and an operation that fails leaves the table as it was. -/
theorem reachable_invariant (ops : List Op) :
    let run := initial.performAll ops
    let t := run.2
    t.WellFormed ∧
    initial.symbols.toList.map Symbol.name = builtinConstants.map Prod.fst ∧
    run.1.filterMap Reply.declaredId? =
      List.range' builtinConstants.length (t.symbols.size - builtinConstants.length) ∧
    builtinConstants.length ≤ t.symbols.size ∧
    (∀ name r, t.resolve name = .ok r ↔ t.Innermost name r) ∧
    (∀ name e, t.resolve name = .error e ↔
      e = .missingBinding ∧ ∀ s ∈ t.scopes, s.find? name = none) ∧
    (∀ name kind e, t.declare name kind = .error e ↔
      e = .alreadyBound ∧ (t.current.find? name).isSome) ∧
    (∀ op e, (t.perform op).1 = .failed e → (t.perform op).2 = t) := by
  intro run t
  have wf : t.WellFormed := initial_wellFormed.performAll ops
  have size : initial.symbols.size = builtinConstants.length := by decide
  obtain ⟨ids, grows⟩ := performAll_declaredIds initial ops
  rw [size] at ids grows
  exact ⟨wf, initial_symbols, ids, grows, fun _ _ => resolve_eq_ok_iff,
    fun _ _ => wf.resolve_eq_error_iff, fun _ _ _ => declare_eq_error_iff,
    fun op _ => perform_failed t op⟩

end SymbolTable

end PulseCompiler
