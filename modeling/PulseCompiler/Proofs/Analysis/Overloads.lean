import PulseCompiler.Proofs.Analysis.Hiding
set_option autoImplicit false

/-!
# Which defcal a gate call uses

A defcal serves a gate call when it has the call's name, as many parameters as the call has
arguments, and qubits that match the call's (`QubitsMatch`): each hardware qubit of the defcal is
the call's qubit at its place, and a named qubit matches any. Among the defcals that serve a call,
the analysis takes the best by `qubitScore`, two points for each hardware qubit and one for each
named one, and among equals the first (`FirstBest`). It sees only the defcals that come before the
call in pre-order, since it records an overload when it reaches its defcal, before its body.

Each statement's contract (`Checker.Chooses`) says which overloads its analysis records, in order,
and that every call in it picks among the overloads recorded before it (`Checker.Picks`), with
arguments typed against a table that only grows (`SymbolTable.Grows`).

Main statement: in an analyzed program every gate call names the symbol of the first best defcal
before it, and its arguments fit that defcal's parameters; a program in which no earlier defcal
serves some call is refused (`Program.analyze_calls_best_defcal`).
-/

namespace PulseCompiler

/-! ### Matching qubits -/

/-- The qubits of a defcal match those of a call (hardware indices, `none` for a named qubit):
there are as many, and each hardware qubit of the defcal is the call's qubit at its place; a
named qubit of the defcal matches anything. -/
def QubitsMatch (defined called : List (Option Nat)) : Prop :=
  defined.length = called.length ∧
    ∀ (i q : Nat), defined[i]? = some (some q) → called[i]? = some (some q)

/-- Two points for each hardware qubit of a defcal, one for each named one. -/
def qubitScore (defined : List (Option Nat)) : Nat :=
  2 * defined.countP (·.isSome) + defined.countP (·.isNone)

theorem qubitsMatch_nil_left {called : List (Option Nat)} :
    QubitsMatch [] called ↔ called = [] := by
  simp [QubitsMatch, @eq_comm _ 0]

theorem not_qubitsMatch_cons_nil {d : Option Nat} {ds : List (Option Nat)} :
    ¬ QubitsMatch (d :: ds) [] := by
  simp [QubitsMatch]

theorem qubitsMatch_cons {d c : Option Nat} {ds cs : List (Option Nat)} :
    QubitsMatch (d :: ds) (c :: cs) ↔ (∀ q, d = some q → c = some q) ∧ QubitsMatch ds cs := by
  constructor
  · rintro ⟨length, placed⟩
    refine ⟨fun q hd => ?_, by simpa using length, fun i q hi => ?_⟩
    · simpa using placed 0 q (by simp [hd])
    · simpa using placed (i + 1) q (by simpa using hi)
  · rintro ⟨head, length, placed⟩
    refine ⟨by simp [length], fun i q hi => ?_⟩
    cases i with
    | zero => simpa using head q (by simpa using hi)
    | succ i => simpa using placed i q (by simpa using hi)

theorem qubitScore_cons (d : Option Nat) (ds : List (Option Nat)) :
    qubitScore (d :: ds) = (if d.isSome then 2 else 1) + qubitScore ds := by
  cases d <;> simp [qubitScore] <;> omega

/-- The score of a defcal for a call is defined exactly when their qubits match, and it is then
two points per hardware qubit and one per named qubit of the defcal. -/
theorem matchScore_eq_some_iff {defined called : List (Option Nat)} {s : Nat} :
    matchScore defined called = some s ↔ QubitsMatch defined called ∧ s = qubitScore defined := by
  induction defined generalizing called s with
  | nil =>
    cases called with
    | nil => simp [matchScore, qubitsMatch_nil_left, qubitScore, eq_comm]
    | cons c cs => simp [matchScore, qubitsMatch_nil_left]
  | cons d ds ih =>
    cases called with
    | nil => simp [matchScore, not_qubitsMatch_cons_nil]
    | cons c cs =>
      cases d with
      | none =>
        simp only [matchScore, Option.map_eq_some_iff, ih, qubitsMatch_cons, qubitScore_cons]
        grind
      | some dq =>
        simp only [matchScore, qubitsMatch_cons, qubitScore_cons]
        by_cases same : c = some dq
        · simp only [same, beq_self_eq_true, if_true, Option.map_eq_some_iff, ih]
          grind
        · have differs : (c == some dq) = false := beq_false_of_ne same
          simp only [differs]
          grind

/-! ### The first of the best -/

/-- `x` is the first of the best elements of `l`, with score `s`, where `R y s'` says that `y`
scores `s'` (an element may score nothing): `x` scores `s`, every element before it scores
less, and every element after it no more. -/
def FirstBest {α : Type} (R : α → Nat → Prop) (l : List α) (x : α) (s : Nat) : Prop :=
  R x s ∧ ∃ l₁ l₂, l = l₁ ++ x :: l₂ ∧ (∀ y ∈ l₁, ∀ s', R y s' → s' < s) ∧
    ∀ y ∈ l₂, ∀ s', R y s' → s' ≤ s

namespace FirstBest

variable {α : Type} {R : α → Nat → Prop} {l m : List α} {x : α} {s : Nat}

/-- Nothing in `l` scores more than the first of the best, when each element has one score. -/
theorem le (h : FirstBest R l x s) (functional : ∀ y s₁ s₂, R y s₁ → R y s₂ → s₁ = s₂)
    {y : α} (hy : y ∈ l) {s' : Nat} (scores : R y s') : s' ≤ s := by
  obtain ⟨hx, l₁, l₂, rfl, before, after⟩ := h
  rcases List.mem_append.1 hy with hy | hy
  · exact Nat.le_of_lt (before y hy s' scores)
  · rcases List.mem_cons.1 hy with rfl | hy
    · exact Nat.le_of_eq (functional y s' s scores hx)
    · exact after y hy s' scores

/-- Elements that score no more than the first of the best may follow it. -/
theorem append (h : FirstBest R l x s) (hm : ∀ y ∈ m, ∀ s', R y s' → s' ≤ s) :
    FirstBest R (l ++ m) x s := by
  obtain ⟨hx, l₁, l₂, rfl, before, after⟩ := h
  refine ⟨hx, l₁, l₂ ++ m, by simp, before, fun y hy s' scores => ?_⟩
  rcases List.mem_append.1 hy with hy | hy
  · exact after y hy s' scores
  · exact hm y hy s' scores

/-- An element that scores more than everything before it is the first of the best. -/
theorem last (hx : R x s) (hl : ∀ y ∈ l, ∀ s', R y s' → s' < s) :
    FirstBest R (l ++ [x]) x s :=
  ⟨hx, l, [], rfl, hl, fun _ hy => nomatch hy⟩

theorem mem (h : FirstBest R l x s) : x ∈ l := by
  obtain ⟨-, l₁, l₂, rfl, -, -⟩ := h
  simp

/-- The first of the best of the images under a partial map is the image of the first of the
best, when an element scores what its image scores. -/
theorem of_filterMap {β : Type} {f : α → Option β} {R' : β → Nat → Prop} {y : β}
    (h : FirstBest R' (l.filterMap f) y s)
    (hR : ∀ x ∈ l, ∀ s', R x s' ↔ ∃ y', f x = some y' ∧ R' y' s') :
    ∃ x, f x = some y ∧ FirstBest R l x s := by
  obtain ⟨hy, m₁, m₂, split, before, after⟩ := h
  obtain ⟨l₁, l₂, rfl, first, second⟩ := List.filterMap_eq_append_iff.1 split
  obtain ⟨k₁, x, k₂, rfl, skipped, hx, rest⟩ := List.filterMap_eq_cons_iff.1 second
  have mem : ∀ z ∈ l₁ ++ k₁, z ∈ l₁ ++ (k₁ ++ x :: k₂) := by
    intro z hz
    rcases List.mem_append.1 hz with hz | hz
    · exact List.mem_append_left _ hz
    · exact List.mem_append_right _ (List.mem_append_left _ hz)
  refine ⟨x, hx, (hR x (by simp) s).2 ⟨y, hx, hy⟩, l₁ ++ k₁, k₂, by simp, ?_, ?_⟩
  · intro z hz s' scores
    obtain ⟨y', hz', scores'⟩ := (hR z (mem z hz) s').1 scores
    rcases List.mem_append.1 hz with hz | hz
    · exact before y' (first ▸ List.mem_filterMap.2 ⟨z, hz, hz'⟩) s' scores'
    · rw [skipped z hz] at hz'
      cases hz'
  · intro z hz s' scores
    obtain ⟨y', hz', scores'⟩ := (hR z (by simp [hz]) s').1 scores
    exact after y' (rest ▸ List.mem_filterMap.2 ⟨z, hz, hz'⟩) s' scores'

end FirstBest

/-! ### The best overload -/

namespace Overload

/-- An overload scores `s` for a call on `called` when its qubits match with that score. -/
def Scores (called : List (Option Nat)) (o : Overload) (s : Nat) : Prop :=
  matchScore o.qubits called = some s

theorem scores_functional (called : List (Option Nat)) (o : Overload) (s₁ s₂ : Nat)
    (h₁ : o.Scores called s₁) (h₂ : o.Scores called s₂) : s₁ = s₂ :=
  Option.some.inj (h₁.symm.trans h₂)

/-- What the search for the best overload knows after the overloads `seen`: with nothing kept,
none of them matches; with an overload kept, it is the first of the best, with its score. -/
def Scan (called : List (Option Nat)) (seen : List Overload) (acc : Option (Nat × Overload)) :
    Prop :=
  (acc = none → ∀ o ∈ seen, matchScore o.qubits called = none) ∧
    ∀ s o, acc = some (s, o) → FirstBest (Scores called) seen o s

theorem scan_nil (called : List (Option Nat)) : Scan called [] none :=
  ⟨fun _ _ h => (nomatch h), fun _ _ h => nomatch h⟩

/-- A search step that keeps what the search knows keeps it over any list of overloads. -/
theorem scan_foldl {called : List (Option Nat)}
    {f : Option (Nat × Overload) → Overload → Option (Nat × Overload)}
    (step : ∀ seen acc o, Scan called seen acc → Scan called (seen ++ [o]) (f acc o)) :
    ∀ (l seen : List Overload) (acc : Option (Nat × Overload)), Scan called seen acc →
      Scan called (seen ++ l) (l.foldl f acc)
  | [], seen, acc, scan => by simpa using scan
  | o :: l, seen, acc, scan => by
    simpa using scan_foldl step l (seen ++ [o]) (f acc o) (step seen acc o scan)

end Overload

/-- The overload chosen for a call is the first of those whose qubits match best. -/
theorem bestOverload_firstBest {os : List Overload} {called : List (Option Nat)} {o : Overload}
    (h : Checker.bestOverload os called = some o) : ∃ s, FirstBest (Overload.Scores called) os o s := by
  unfold Checker.bestOverload at h
  obtain ⟨⟨s, o'⟩, found, rfl⟩ := Option.map_eq_some_iff.1 h
  refine ⟨s, (Overload.scan_foldl ?_ os [] none (Overload.scan_nil called)).2 s o' found⟩
  intro seen acc o ⟨none_yet, best⟩
  split
  · rename_i s scores
    refine ⟨nofun, fun s' o' same => ?_⟩
    cases same
    refine FirstBest.last scores fun y hy s' hs' => ?_
    rw [Overload.Scores, none_yet rfl y hy] at hs'
    cases hs'
  · rename_i s b bo scores
    have known := best b bo rfl
    split
    · rename_i better
      refine ⟨nofun, fun s' o' same => ?_⟩
      cases same
      refine FirstBest.last scores fun y hy s' hs' => ?_
      have := known.le (Overload.scores_functional called) hy hs'
      omega
    · rename_i worse
      refine ⟨nofun, fun s' o' same => ?_⟩
      cases same
      refine known.append fun y hy s' hs' => ?_
      rw [List.mem_singleton] at hy
      subst hy
      rw [Overload.Scores, scores] at hs'
      cases hs'
      omega
  · rename_i unmatched
    refine ⟨fun kept y hy => ?_, fun s' o' kept => ?_⟩
    · rcases List.mem_append.1 hy with hy | hy
      · exact none_yet kept y hy
      · rw [List.mem_singleton] at hy
        exact hy ▸ unmatched
    · refine (best s' o' kept).append fun y hy s'' hs'' => ?_
      rw [List.mem_singleton] at hy
      rw [hy, Overload.Scores, unmatched] at hs''
      cases hs''


/-! ### Recorded overloads -/

/-- The overload a defcal records under its name, once it carries a symbol. -/
def StmtKind.overload? : StmtKind → Option (String × Overload)
  | .defcal n ps qs result _ =>
    n.symbol.map fun sym =>
      (n.name, ⟨qs.map Qubit.hardwareIndex?, sym, Checker.signatureOf ps result⟩)
  | _ => none

/-- The overloads that the defcals among the kinds `W` record, in order. -/
def overloadsIn (W : List StmtKind) : List (String × Overload) := W.filterMap StmtKind.overload?

/-- A statement kind that records no overload and calls no gate. -/
def StmtKind.Quiet (k : StmtKind) : Prop := k.overload? = none ∧ ∀ n args qs, k ≠ .gate n args qs

theorem overloadsIn_append (W W' : List StmtKind) :
    overloadsIn (W ++ W') = overloadsIn W ++ overloadsIn W' :=
  List.filterMap_append

theorem StmtKind.overload?_of_blocks {k : StmtKind} (leaf : k.blocks = []) : k.overload? = none := by
  cases k <;> simp_all [StmtKind.blocks, StmtKind.overload?]

namespace Checker

/-- The overloads recorded under `name` among the recordings `L`, in order. -/
def offered (L : List (String × Overload)) (name : String) : List Overload :=
  L.filterMap fun p => if p.1 = name then some p.2 else none

/-- The analyzer holds the recordings `L`: under each name the overloads recorded under it, in
order, and nothing under a name without any. -/
def Recorded (L : List (String × Overload)) (c : Checker) : Prop :=
  ∀ name, c.overloadsOf name = if offered L name = [] then none else some (offered L name)

theorem offered_append (L M : List (String × Overload)) (name : String) :
    offered (L ++ M) name = offered L name ++ offered M name :=
  List.filterMap_append

theorem offered_singleton (n name : String) (o : Overload) :
    offered [(n, o)] name = if n = name then [o] else [] := by
  by_cases same : n = name <;> simp [offered, same]

/-- Looking a name up in a list whose names a map keeps finds the image of what it found. -/
theorem find?_map_of_fst {f : String × List Overload → String × List Overload}
    (hf : ∀ p, (f p).1 = p.1) (l : List (String × List Overload)) (name : String) :
    (l.map f).find? (·.1 == name) = (l.find? (·.1 == name)).map f := by
  have names : ((·.1 == name) ∘ f) = (·.1 == name) := by
    funext p
    simp [hf p]
  rw [List.find?_map, names]

/-- Recording an overload puts it after those of its name, and leaves other names alone. -/
theorem overloadsOf_record (c : Checker) (name name' : String) (o : Overload) :
    (c.record name o).overloadsOf name' =
      if name = name' then some ((c.overloadsOf name).getD [] ++ [o]) else c.overloadsOf name' := by
  unfold record overloadsOf
  split
  · rename_i present
    rw [find?_map_of_fst (fun p => by dsimp only; split <;> rfl)]
    cases found : c.overloads.find? (·.1 == name') with
    | none =>
      have absent := List.find?_eq_none.1 found
      split
      · rename_i same
        subst same
        obtain ⟨p, hp, named⟩ := List.any_eq_true.1 present
        exact absurd named (absent p hp)
      · rfl
    | some p =>
      have named : p.1 = name' := by simpa using List.find?_some found
      split
      · rename_i same
        subst same
        simp [named, found]
      · rename_i differs
        have other : p.1 ≠ name := named ▸ Ne.symm differs
        simp [other]
  · rename_i absent
    rw [List.find?_append]
    split
    · rename_i same
      subst same
      have none_yet : c.overloads.find? (·.1 == name) = none :=
        List.find?_eq_none.2 fun p hp named => absent (List.any_eq_true.2 ⟨p, hp, named⟩)
      simp [none_yet]
    · rename_i differs
      have other : [(name, [o])].find? (·.1 == name') = none := by simp [differs]
      rw [other, Option.or_none]

theorem recorded_nil {c : Checker} (h : c.overloads = []) : Recorded [] c := by
  intro name
  simp [overloadsOf, h, offered]

namespace Recorded

variable {L : List (String × Overload)} {c c' : Checker}

/-- What is recorded depends on the recorded overloads alone. -/
theorem congr (h : Recorded L c) (same : c'.overloads = c.overloads) : Recorded L c' := by
  intro name
  rw [← h name]
  simp only [overloadsOf, same]

theorem record (h : Recorded L c) (name : String) (o : Overload) :
    Recorded (L ++ [(name, o)]) (c.record name o) := by
  intro name'
  rw [overloadsOf_record, offered_append, offered_singleton]
  by_cases same : name = name'
  · subst same
    rw [h name]
    by_cases empty : offered L name = [] <;> simp [empty]
  · simp [same, h name']

theorem overloadsOf_eq_some (h : Recorded L c) {name : String} {os : List Overload}
    (found : c.overloadsOf name = some os) : os = offered L name := by
  rw [h name] at found
  split at found
  · cases found
  · exact (Option.some.inj found).symm

end Recorded

end Checker

/-! ### A table that only grows -/

namespace SymbolTable

variable {t t' t'' : SymbolTable} {i : Ident}

/-- The table `t'` holds every symbol of `t`, under the same number. -/
def Grows (t t' : SymbolTable) : Prop := ∀ id s, t.get? id = some s → t'.get? id = some s

theorem Grows.refl (t : SymbolTable) : t.Grows t := fun _ _ h => h

theorem Grows.trans (h : t.Grows t') (h' : t'.Grows t'') : t.Grows t'' :=
  fun id s hs => h' id s (h id s hs)

theorem grows_of_symbols (same : t'.symbols = t.symbols) : t.Grows t' := by
  intro id s hs
  rw [get?_eq, same]
  exact hs

theorem grows_declare {name : String} {kind : SymbolKind} {id : SymbolId}
    (h : t.declare name kind = .ok (id, t')) : t.Grows t' := by
  obtain ⟨-, rfl, rfl⟩ := declare_eq_ok_iff.1 h
  intro id s hs
  rw [get?_eq, symbols_declared]
  exact get?_push hs

/-- An identifier carries the number of a symbol of the table. -/
def Knows (t : SymbolTable) (i : Ident) : Prop := ∃ id s, i.symbol = some id ∧ t.get? id = some s

theorem Knows.grow (h : t.Knows i) (g : t.Grows t') : t'.Knows i := by
  obtain ⟨id, s, hi, hs⟩ := h
  exact ⟨id, s, hi, g id s hs⟩

theorem Resolves.knows (h : t.Resolves i) : t.Knows i := by
  obtain ⟨r, found, hi⟩ := h
  obtain ⟨-, -, -, -, -, -, hs, -⟩ := resolve_eq_ok_iff.1 found
  exact ⟨r.id, r.symbol, hi, hs⟩

end SymbolTable

namespace Checker

variable {t t' : SymbolTable}

theorem identType_grow (g : t.Grows t') {i : Ident} (known : t.Knows i) :
    identType t' i = identType t i := by
  obtain ⟨id, s, hi, hs⟩ := known
  simp [identType, hi, SymbolTable.typeOf, hs, g id s hs]

theorem mem_identifiersOfList {e : Expr} {es : List Expr} (he : e ∈ es) {i : Ident}
    (hi : i ∈ e.identifiers) : i ∈ Expr.identifiersOfList es := by
  induction es with
  | nil => cases he
  | cons e' rest ih =>
    simp only [Expr.identifiersOfList, List.mem_append]
    rcases List.mem_cons.1 he with rfl | he
    · exact .inl hi
    · exact .inr (ih he)

mutual

/-- The type of an expression whose identifiers have symbols in a table stays as the table
grows. -/
theorem exprType_grow (g : t.Grows t') :
    (e : Expr) → (∀ i ∈ e.identifiers, t.Knows i) → exprType t' e = exprType t e
  | .lit l, _ => by cases l <;> rfl
  | .ident i, known => by
    simp only [exprType]
    exact identType_grow g (known i (by simp [Expr.identifiers]))
  | .binary op l r, known => by
    have hl := exprType_grow g l fun i hi => known i (by simp [Expr.identifiers, hi])
    have hr := exprType_grow g r fun i hi => known i (by simp [Expr.identifiers, hi])
    cases op <;> simp only [exprType, hl, hr]
  | .unary op e, known => by
    have he := exprType_grow g e fun i hi => known i (by simpa [Expr.identifiers] using hi)
    cases op <;> simp only [exprType, he]
  | .call n args, known => by
    simp only [exprType]
    exact identType_grow g (known n (by simp [Expr.identifiers]))
  | .array items, known => by
    have hs := exprTypes_grow g items fun i hi => known i (by simpa [Expr.identifiers] using hi)
    simp only [exprType, hs]

theorem exprTypes_grow (g : t.Grows t') :
    (es : List Expr) → (∀ i ∈ Expr.identifiersOfList es, t.Knows i) →
      exprTypes t' es = exprTypes t es
  | [], _ => rfl
  | e :: rest, known => by
    have he := exprType_grow g e fun i hi =>
      known i (by simp [Expr.identifiersOfList, hi])
    have hs := exprTypes_grow g rest fun i hi =>
      known i (by simp [Expr.identifiersOfList, hi])
    simp only [exprTypes, he, hs]

end

/-! ### Choices of gate calls -/

/-- The call `.gate n args qs` as analysis leaves it, with the overloads `L` recorded before it
and the table `t`: its name carries the symbol of the first of the best overloads of its name
and arity for its qubits, and each argument, whose identifiers all have symbols in `t`, fits the
type of its parameter. -/
def Chose (t : SymbolTable) (L : List (String × Overload)) (n : Ident) (args : List Expr)
    (qs : List Qubit) : Prop :=
  ∃ o s, FirstBest (Overload.Scores (qs.map Qubit.hardwareIndex?))
      ((offered L n.name).filter (·.signature.arity == args.length)) o s ∧
    n.symbol = some o.symbol ∧ (∀ i ∈ Expr.identifiersOfList args, t.Knows i) ∧
    ∀ pa ∈ o.signature.params.zip args, (exprType t pa.2).assignableTo pa.1.2 = true

theorem Chose.grow {L : List (String × Overload)} {n : Ident} {args : List Expr}
    {qs : List Qubit} (h : Chose t L n args qs) (g : t.Grows t') : Chose t' L n args qs := by
  obtain ⟨o, s, best, symbol, known, fits⟩ := h
  refine ⟨o, s, best, symbol, fun i hi => (known i hi).grow g, fun pa hpa => ?_⟩
  have arg : pa.2 ∈ args := (List.of_mem_zip hpa).2
  rw [exprType_grow g pa.2 fun i hi => known i (mem_identifiersOfList arg hi)]
  exact fits pa hpa

/-- Every gate call among the kinds `W` chose as analysis does, with the overloads `L` recorded
before `W` and those of the defcals before it in `W`. -/
def Picks (t : SymbolTable) (L : List (String × Overload)) (W : List StmtKind) : Prop :=
  ∀ before n args qs after, W = before ++ .gate n args qs :: after →
    Chose t (L ++ overloadsIn before) n args qs

namespace Picks

variable {L : List (String × Overload)} {W W' : List StmtKind}

theorem grow (h : Picks t L W) (g : t.Grows t') : Picks t' L W :=
  fun before n args qs after split => (h before n args qs after split).grow g

theorem nil : Picks t L [] := fun before _ _ _ _ split => by
  cases before <;> cases split

theorem single {k : StmtKind} (notGate : ∀ n args qs, k ≠ .gate n args qs) : Picks t L [k] := by
  intro before n args qs after split
  cases before with
  | nil => exact absurd (List.cons.inj split).1 (notGate n args qs)
  | cons b bs => cases bs <;> cases (List.cons.inj split).2

theorem gate {n : Ident} {args : List Expr} {qs : List Qubit} (h : Chose t L n args qs) :
    Picks t L [.gate n args qs] := by
  intro before n' args' qs' after split
  cases before with
  | nil =>
    obtain ⟨same, -⟩ := List.cons.inj split
    cases same
    simpa [overloadsIn] using h
  | cons b bs => cases bs <;> cases (List.cons.inj split).2

/-- The calls of two runs of kinds, the second after the overloads of the first. -/
theorem append (h : Picks t L W) (h' : Picks t (L ++ overloadsIn W) W') : Picks t L (W ++ W') := by
  intro before n args qs after split
  rcases List.append_eq_append_iff.1 split with ⟨mid, rfl, second⟩ | ⟨mid, first, rest⟩
  · have chose := h' mid n args qs after second
    rwa [List.append_assoc, ← overloadsIn_append] at chose
  · rcases List.cons_eq_append_iff.1 rest with ⟨rfl, rfl⟩ | ⟨mid', rfl, rfl⟩
    · have chose := h' [] n args qs after rfl
      rw [List.append_nil] at first
      subst first
      simpa [overloadsIn] using chose
    · exact h before n args qs mid' first

end Picks

/-- The kinds `W'` record the overloads that `W` records, and make the choices that `W` makes. -/
def Echoes (W W' : List StmtKind) : Prop :=
  overloadsIn W' = overloadsIn W ∧ ∀ t L, Picks t L W → Picks t L W'

namespace Echoes

variable {W W' : List StmtKind}

theorem of_eq (h : W' = W) : Echoes W W' := ⟨by rw [h], fun _ _ picks => h ▸ picks⟩

theorem cons {k : StmtKind} (quiet : k.Quiet) (h : Echoes W W') : Echoes W (k :: W') := by
  refine ⟨?_, fun t L picks => ?_⟩
  · simp only [overloadsIn, List.filterMap_cons, quiet.1]
    exact h.1
  · have front : Picks t L [k] := Picks.single quiet.2
    have rest : Picks t (L ++ overloadsIn [k]) W' := by
      simpa [overloadsIn, quiet.1] using h.2 t L picks
    exact front.append rest

end Echoes

/-! ### Steps that choose -/

/-- A step that keeps the recorded overloads and only adds symbols to the table, and gives a
value satisfying `R`. -/
def Extends {α : Type} (x : CheckM α) (R : α → Prop) : Prop :=
  ∀ c, Contract x (· = c)
    (fun a c' => c'.overloads = c.overloads ∧ c.table.Grows c'.table ∧ R a) (fun _ => True)

theorem extends_leafSteps : LeafSteps Extends where
  readOnly hx c := (hx c).consequence (fun _ h => h)
    (fun _ _ ⟨same, _⟩ => same ▸ ⟨rfl, SymbolTable.Grows.refl _, trivial⟩) (fun _ _ => trivial)
  declare i kind c := (declareIdent_contract i kind c).consequence (fun _ h => h)
    (fun _ _ ⟨_, _, declared, _, same⟩ => same ▸ ⟨rfl, SymbolTable.grows_declare declared, trivial⟩)
    (fun _ _ => trivial)
  pure ha _ := Contract.pure fun _ same => same ▸ ⟨rfl, SymbolTable.Grows.refl _, ha⟩
  bind hx hf c := Contract.bind (hx c) fun a c₁ ⟨kept, grows, ha⟩ =>
    ((hf a ha c₁).consequence (fun _ h => h)
      (fun _ _ ⟨kept', grows', hb⟩ => ⟨kept'.trans kept, grows.trans grows', hb⟩)
      (fun _ h => h)) c₁ rfl

/-- What a step that extends gives, whatever state it runs on. -/
theorem Extends.value {α : Type} {x : CheckM α} {R : α → Prop} (h : Extends x R) :
    Contract x (fun _ => True) (fun a _ => R a) (fun _ => True) :=
  fun c _ => ((h c).consequence (fun _ h => h) (fun _ _ h => h.2.2) (fun _ h => h)) c rfl


theorem extends_mapM {α β γ : Type} {f : α → CheckM β} {view : β → γ} {view' : α → γ}
    (hf : ∀ a, Extends (f a) fun b => view b = view' a) (as : List α) :
    Extends (as.mapM f) fun bs => bs.map view = as.map view' := by
  induction as with
  | nil => exact extends_leafSteps.pure rfl
  | cons a as ih =>
    rw [List.mapM_cons]
    exact extends_leafSteps.bind (hf a) fun b hb => extends_leafSteps.bind ih fun bs hbs =>
      extends_leafSteps.pure (by rw [List.map_cons, List.map_cons, hb, hbs])

theorem declareIdent_extends (i : Ident) (kind : SymbolKind) :
    Extends (declareIdent i kind) fun i' => i'.erase = i.erase := fun c =>
  (declareIdent_contract i kind c).consequence (fun _ h => h)
    (fun _ _ ⟨_, _, declared, named, same⟩ =>
      same ▸ named ▸ ⟨rfl, SymbolTable.grows_declare declared, rfl⟩)
    (fun _ _ => trivial)

theorem declareParams_extends (ps : List Param) :
    Extends (declareParams ps) fun ps' => ps'.map Param.erase = ps.map Param.erase :=
  extends_mapM (fun p => extends_leafSteps.bind (declareIdent_extends _ _) fun _ named =>
    extends_leafSteps.pure (by simp only [Param.erase, named])) ps

theorem declareQubits_extends (qs : List Qubit) :
    Extends (declareQubits qs) fun qs' => qs'.map Qubit.erase = qs.map Qubit.erase := by
  refine extends_mapM (fun q => ?_) qs
  cases q with
  | named i =>
    exact extends_leafSteps.bind (declareIdent_extends _ _) fun _ named =>
      extends_leafSteps.pure (by simp only [Qubit.erase, named])
  | hardware n => exact extends_leafSteps.pure rfl

theorem takeId_extends : Extends takeId fun _ => True := by
  intro c
  unfold takeId
  exact Contract.get_bind fun c' same => Contract.set_bind fun _ _ => Contract.pure fun _ set =>
    set ▸ same ▸ ⟨rfl, SymbolTable.Grows.refl _, trivial⟩

/-- A step that records the overloads of the defcals among the kinds `walk a` of the value `a`
it gives, in order, after those recorded before it, and whose every gate call among them chose
as analysis does; it only adds symbols to the table. Nothing is said of a step that fails. -/
def Chooses {α : Type} (x : CheckM α) (walk : α → List StmtKind) : Prop :=
  ∀ (L : List (String × Overload)) (t : SymbolTable),
    Contract x (fun c => Recorded L c ∧ t.Grows c.table)
    (fun a c => Recorded (L ++ overloadsIn (walk a)) c ∧ t.Grows c.table ∧
      Picks c.table L (walk a))
    (fun _ => True)

/-- The postcondition of a step that chooses carries over to kinds that echo its own. -/
theorem Echoes.post {W W' : List StmtKind} (h : Echoes W W') {L : List (String × Overload)}
    {t : SymbolTable} {c : Checker}
    (post : Recorded (L ++ overloadsIn W) c ∧ t.Grows c.table ∧ Picks c.table L W) :
    Recorded (L ++ overloadsIn W') c ∧ t.Grows c.table ∧ Picks c.table L W' := by
  obtain ⟨recorded, grows, picks⟩ := post
  exact ⟨h.1 ▸ recorded, grows, h.2 _ _ picks⟩

namespace Chooses

variable {α β γ : Type}

/-- A step that only extends the table, and gives a value whose kinds record and call nothing. -/
theorem of_extends {x : CheckM α} {R : α → Prop} {walk : α → List StmtKind} (hx : Extends x R)
    (quiet : ∀ a, R a → Echoes [] (walk a)) : Chooses x walk := by
  intro L t c ⟨recorded, grows⟩
  have chose : Contract x (· = c) (fun a c' => Recorded (L ++ overloadsIn (walk a)) c' ∧
      t.Grows c'.table ∧ Picks c'.table L (walk a)) (fun _ => True) :=
    (hx c).consequence (fun _ h => h) (fun a c' ⟨kept, grows', ha⟩ =>
      (quiet a ha).post ⟨by simpa [overloadsIn] using recorded.congr kept, grows.trans grows',
        Picks.nil⟩) (fun _ h => h)
  exact chose c rfl

theorem pure {a : α} {walk : α → List StmtKind} (h : Echoes [] (walk a)) :
    Chooses (Pure.pure a) walk :=
  of_extends (extends_leafSteps.pure (R := fun b => b = a) rfl) fun _ same => same ▸ h

theorem after {x : CheckM α} {f : α → CheckM β} {R : α → Prop} {walk : β → List StmtKind}
    (hx : Extends x R) (hf : ∀ a, R a → Chooses (f a) walk) : Chooses (x >>= f) walk := by
  intro L t c ⟨recorded, grows⟩
  refine Contract.bind (hx c) (fun a c' ⟨kept, grows', ha⟩ => ?_) c rfl
  exact hf a ha L t c' ⟨recorded.congr kept, grows.trans grows'⟩

/-- A step that gives a value, then a value whose kinds echo those of the first. -/
theorem bind_pure {x : CheckM α} {f : α → CheckM β} {walk : α → List StmtKind}
    {walk' : β → List StmtKind} (hx : Chooses x walk)
    (hf : ∀ a, ∃ b, f a = Pure.pure b ∧ Echoes (walk a) (walk' b)) :
    Chooses (x >>= f) walk' := by
  intro L t
  refine Contract.bind (hx L t) fun a => ?_
  obtain ⟨b, hb, echoes⟩ := hf a
  rw [hb]
  exact Contract.pure fun _ post => echoes.post post

theorem map {x : CheckM α} {walk : α → List StmtKind} {g : α → β} {walk' : β → List StmtKind}
    (hx : Chooses x walk) (hg : ∀ a, Echoes (walk a) (walk' (g a))) :
    Chooses (x >>= fun a => Pure.pure (g a)) walk' :=
  hx.bind_pure fun a => ⟨g a, rfl, hg a⟩

/-- Two steps in a row: the second starts from the overloads the first recorded. -/
theorem append {x : CheckM α} {y : CheckM β} {wx : α → List StmtKind} {wy : β → List StmtKind}
    {g : α → β → γ} {walk : γ → List StmtKind} (hx : Chooses x wx) (hy : Chooses y wy)
    (hg : ∀ a b, Echoes (wx a ++ wy b) (walk (g a b))) :
    Chooses (x >>= fun a => y >>= fun b => Pure.pure (g a b)) walk := by
  intro L t
  refine Contract.bind (hx L t) fun a c ⟨recorded, grows, picks⟩ => ?_
  refine Contract.bind (hy (L ++ overloadsIn (wx a)) c.table) (fun b => Contract.pure
    fun c' ⟨recorded', grows', picks'⟩ => (hg a b).post ⟨?_, grows.trans grows', ?_⟩)
    c ⟨recorded, SymbolTable.Grows.refl _⟩
  · rwa [overloadsIn_append, ← List.append_assoc]
  · exact (picks.grow grows').append picks'

theorem get_bind {k : Checker → CheckM α} {walk : α → List StmtKind}
    (h : ∀ c, Chooses (k c) walk) : Chooses (MonadState.get >>= k) walk :=
  fun L t => Contract.get_bind fun c hc c' same => h c L t c' (same ▸ hc)

theorem fail_bind {cause : ErrorCause} {range : TextRange} {f : α → CheckM β}
    {walk : β → List StmtKind} : Chooses (Checker.fail cause range >>= f) walk :=
  fun _ _ => Contract.fail_bind True.intro

theorem withScope {kind : ScopeKind} {range : TextRange} {step : CheckM α}
    {walk : α → List StmtKind} (h : Chooses step walk) :
    Chooses (Checker.withScope kind range step) walk := by
  intro L t
  unfold Checker.withScope
  refine Contract.get_bind fun c ⟨recorded, grows⟩ => ?_
  dsimp only
  split
  on_goal 1 =>
    obtain ⟨-, rfl⟩ := SymbolTable.enter_eq_some_iff.1 ‹_›
    refine Contract.set_bind fun _ _ => ?_
  all_goals
    refine Contract.bind ((h L t).consequence (fun c' same => same ▸
      ⟨recorded.congr rfl, grows.trans (SymbolTable.grows_of_symbols rfl)⟩) (fun _ _ h => h)
      (fun _ h => h)) fun a => ?_
    refine Contract.get_bind fun c' ⟨recorded', grows', picks'⟩ => ?_
    split
    · rename_i left
      obtain ⟨-, -, -, -, rfl⟩ := SymbolTable.leave_eq_ok_iff.1 left
      have closed : c'.table.Grows { c'.table with inner := _ } :=
        SymbolTable.grows_of_symbols rfl
      exact Contract.set_bind fun _ _ => Contract.pure fun _ same => same ▸
        ⟨recorded'.congr rfl, grows'.trans closed, picks'.grow closed⟩
    · exact Contract.fail_bind trivial

end Chooses

/-- Every argument that a successful check of a call's arguments sees fits the type of its
parameter. -/
theorem ReadOnly.forIn_all {γ : Type} {f : γ → PUnit → CheckM (ForInStep PUnit)}
    {P : Checker → γ → Prop}
    (hf : ∀ a u, ReadOnly (f a u) fun c step => step = .yield .unit ∧ P c a) (as : List γ)
    (u : PUnit) : ReadOnly (ForIn.forIn as u f) fun c _ => ∀ a ∈ as, P c a := by
  induction as generalizing u with
  | nil => exact ReadOnly.pure fun _ _ h => nomatch h
  | cons a as ih =>
    rw [List.forIn_cons]
    refine (hf a u).bind fun c step ⟨yields, ha⟩ => ?_
    subst yields
    refine (ih .unit c).consequence (fun _ h => h) (fun _ _ ⟨same, hall⟩ => ⟨same, ?_⟩)
      (fun _ h => h)
    intro b hb
    rcases List.mem_cons.1 hb with rfl | hb
    · exact ha
    · exact hall b hb

theorem checkAssignable_fits (name : String) (found expected : Ty) (range : TextRange) :
    ReadOnly (checkAssignable name found expected range) fun _ _ =>
      found.assignableTo expected = true := by
  unfold checkAssignable
  split
  · rename_i fits
    exact ReadOnly.pure fun _ => fits
  · exact ReadOnly.fail fun _ _ => nofun

/-- A successful check of a call's arguments: each argument fits the type of its parameter. -/
theorem checkArguments_fits (name : String) (sig : Signature) (args : List Expr)
    (range : TextRange) :
    ReadOnly (checkArguments name sig args range) fun c _ =>
      ∀ pa ∈ sig.params.zip args, (exprType c.table pa.2).assignableTo pa.1.2 = true := by
  intro c
  unfold checkArguments
  split
  · exact Contract.fail_bind nofun
  · refine Contract.get_bind fun c' same => ?_
    subst c'
    refine (ReadOnly.forIn_all (P := fun _ pa => (exprType c.table pa.2).assignableTo pa.1.2)
      (fun pa _ => ?_) _ _).bind_at fun _ fits => ReadOnly.pure_at fits
    exact (checkAssignable_fits _ _ _ _).bind fun _ _ fits => ReadOnly.pure_at ⟨rfl, fits⟩


/-! ### What the analysis of a statement chooses -/

/-- Two contracts of one step, the second holding from every state. -/
theorem Contract.and {α : Type} {x : CheckM α} {pre : Checker → Prop}
    {post post' : α → Checker → Prop} {err : SemanticError → Prop}
    (h : Contract x pre post err) (h' : Contract x (fun _ => True) post' fun _ => True) :
    Contract x pre (fun a c => post a c ∧ post' a c) err := by
  intro c hc
  have holds := h c hc
  have holds' := h' c trivial
  cases hx : x.run c with
  | ok p =>
    obtain ⟨a, c'⟩ := p
    rw [hx] at holds holds'
    exact ⟨holds, holds'⟩
  | error e =>
    rw [hx] at holds
    exact holds

theorem Contract.trivial {α : Type} {x : CheckM α} {pre : Checker → Prop} :
    Contract x pre (fun _ _ => True) fun _ => True := by
  intro c _
  cases x.run c with
  | ok p =>
    obtain ⟨a, c'⟩ := p
    exact True.intro
  | error e => exact True.intro

theorem withScope_value {α : Type} {kind : ScopeKind} {range : TextRange} {step : CheckM α}
    {P : α → Prop} (h : Contract step (fun _ => True) (fun a _ => P a) fun _ => True) :
    Contract (withScope kind range step) (fun _ => True) (fun a _ => P a) fun _ => True := by
  unfold withScope
  refine Contract.get_bind fun c _ => ?_
  dsimp only
  split
  on_goal 1 => refine Contract.set_bind fun _ _ => ?_
  all_goals
    refine Contract.bind (h.consequence (fun _ _ => True.intro) (fun _ _ h => h) (fun _ h => h))
      fun a => Contract.get_bind fun c' ha => ?_
    split
    · exact Contract.set_bind fun _ _ => Contract.pure fun _ _ => ha
    · exact Contract.fail_bind True.intro

/-- A gate call resolves to the first of the best overloads of its name and arity for its
qubits, among those recorded before it, and its arguments fit their parameters. -/
theorem checkGate_chooses (name : Ident) (args : List Expr) (qubits : List Qubit)
    (range : TextRange) :
    Chooses (checkGate name args qubits range) fun k => k :: k.walkBlocks.map Stmt.kind := by
  intro L t c ⟨recorded, grows⟩
  have chose : Contract (checkGate name args qubits range) (· = c)
      (fun k c' => c' = c ∧ ∃ n args' qs', k = .gate n args' qs' ∧ Chose c.table L n args' qs')
      (fun e => ¬ e.Misplaced) := by
    unfold checkGate
    refine (resolveExprs_readOnly args).bind_at fun args' hargs => ?_
    refine (expectQubits_readOnly qubits).bind_at fun qubits' _ => ?_
    refine Contract.get_bind fun c' same => ?_
    subst c'
    split
    · rename_i os found
      dsimp only
      split
      · exact Contract.fail_bind nofun
      · split
        · exact Contract.fail nofun
        · rename_i o chosen
          refine (checkArguments_fits _ _ _ _).bind_at fun _ fits => ReadOnly.pure_at ?_
          obtain ⟨s, best⟩ := bestOverload_firstBest chosen
          rw [recorded.overloadsOf_eq_some found] at best
          exact ⟨_, args', qubits', rfl, o, s, best, rfl,
            fun i hi => (hargs.2 i hi).knows, fits⟩
    · exact Contract.fail nofun
  refine (chose.consequence (fun _ h => h) (fun k c' ⟨same, n, args', qs', shape, picked⟩ => ?_)
    (fun _ _ => True.intro)) c rfl
  subst same shape
  have quiet : overloadsIn [StmtKind.gate n args' qs'] = [] := rfl
  refine ⟨?_, grows, Picks.gate picked⟩
  show Recorded (L ++ overloadsIn [StmtKind.gate n args' qs']) c'
  rw [quiet, List.append_nil]
  exact recorded

/-- Statements without blocks, other than gate calls, record and call nothing. -/
theorem checkKind_chooses_of_leaf (range : TextRange) {k : StmtKind} (leaf : k.blocks = [])
    (notGate : ∀ n args qs, k ≠ .gate n args qs) :
    Chooses (checkKind range k) fun k' => k' :: k'.walkBlocks.map Stmt.kind :=
  Chooses.of_extends (checkKind_leaf extends_leafSteps range leaf notGate)
    fun _ ⟨blocks, notGate'⟩ => Echoes.cons ⟨StmtKind.overload?_of_blocks blocks, notGate'⟩
      (Echoes.of_eq (by rw [StmtKind.walkBlocks_eq_flatMap, blocks]; rfl))

theorem Qubit.hardwareIndex?_erase (q : Qubit) : q.erase.hardwareIndex? = q.hardwareIndex? := by
  cases q <;> rfl

theorem map_hardwareIndex?_of_erase {qs qs' : List Qubit}
    (h : qs'.map Qubit.erase = qs.map Qubit.erase) :
    qs'.map Qubit.hardwareIndex? = qs.map Qubit.hardwareIndex? := by
  have indices := congrArg (List.map Qubit.hardwareIndex?) h
  simpa [Function.comp_def, Qubit.hardwareIndex?_erase] using indices

theorem signatureOf_of_erase {ps ps' : List Param} (h : ps'.map Param.erase = ps.map Param.erase)
    (result : Option Ty) : signatureOf ps' result = signatureOf ps result := by
  have params := congrArg (List.map fun p : Param => (p.name.name, p.ty)) h
  simp only [List.map_map, Function.comp_def, Param.erase, Ident.erase] at params
  simp only [signatureOf, params]


/-- A defcal records its overload before its body is analyzed, so the calls in its body, and
those after it, may choose it. -/
theorem defcal_chooses {n : Ident} {ps : List Param} {qs : List Qubit} {ret : Option Ty}
    {body : List Stmt} (range : TextRange)
    (hbody : Chooses (checkBlock body) fun b' => (Stmt.walkList b').map Stmt.kind) :
    Chooses (checkKind range (.defcal n ps qs ret body))
      fun k' => k' :: k'.walkBlocks.map Stmt.kind := by
  intro L t
  simp only [checkKind]
  refine Contract.get_bind fun c hc => ?_
  obtain ⟨recorded, grows⟩ := hc
  split
  · rename_i r declared
    obtain ⟨sym, t'⟩ := r
    simp only [pure_bind]
    refine Contract.set_bind fun _ _ => ?_
    have opened : Chooses (withScope .defcal range (declareParams ps >>= fun ps' =>
        declareQubits qs >>= fun qs' => checkBlock body >>= fun body' =>
          pure (ps', qs', body'))) fun a => (Stmt.walkList a.2.2).map Stmt.kind :=
      Chooses.withScope (Chooses.after (declareParams_extends _) fun _ _ =>
        Chooses.after (declareQubits_extends _) fun _ _ =>
          hbody.map fun _ => Echoes.of_eq rfl)
    have shapes : Contract (withScope .defcal range (declareParams ps >>= fun ps' =>
        declareQubits qs >>= fun qs' => checkBlock body >>= fun body' =>
          pure (ps', qs', body'))) (fun _ => True)
        (fun a _ => a.1.map Param.erase = ps.map Param.erase ∧
          a.2.1.map Qubit.erase = qs.map Qubit.erase) fun _ => True :=
      withScope_value (Contract.bind (declareParams_extends ps).value fun _ c₁ hps =>
        Contract.bind (declareQubits_extends qs).value (fun _ c₂ hqs =>
          Contract.bind (Contract.trivial : Contract (checkBlock body) (fun _ => True) _ _)
            (fun _ => Contract.pure fun _ _ => ⟨hps, hqs⟩) c₂ True.intro) c₁ True.intro)
    have start :
        Recorded (L ++ [(n.name, ⟨qs.map Qubit.hardwareIndex?, sym, signatureOf ps ret⟩)])
          (({ c with table := t' } : Checker).record n.name
            ⟨qs.map Qubit.hardwareIndex?, sym, signatureOf ps ret⟩) ∧
        t.Grows (({ c with table := t' } : Checker).record n.name
          ⟨qs.map Qubit.hardwareIndex?, sym, signatureOf ps ret⟩).table := by
      have kept : ({ c with table := t' } : Checker).overloads = c.overloads := rfl
      refine ⟨(recorded.congr kept).record _ _, ?_⟩
      rw [record_table]
      exact grows.trans (SymbolTable.grows_declare declared)
    refine Contract.bind (((opened _ t).and shapes).consequence (fun _ same => same ▸ start)
      (fun _ _ h => h) (fun _ h => h)) fun a c' h => ?_
    obtain ⟨⟨recorded', grows', picks'⟩, hps, hqs⟩ := h
    obtain ⟨ps', qs', body'⟩ := a
    have same : overloadsIn [StmtKind.defcal { n with symbol := some sym } ps' qs' ret body'] =
        [(n.name, ⟨qs.map Qubit.hardwareIndex?, sym, signatureOf ps ret⟩)] := by
      simp only [overloadsIn, List.filterMap_cons, List.filterMap_nil, StmtKind.overload?,
        Option.map_some, map_hardwareIndex?_of_erase hqs, signatureOf_of_erase hps]
    refine ⟨?_, grows', ?_⟩
    · rw [← List.singleton_append, overloadsIn_append, same, ← List.append_assoc]
      exact recorded'
    · rw [← List.singleton_append]
      refine (Picks.single ?_).append ?_
      · exact fun _ _ _ same => StmtKind.noConfusion same
      · rw [same]
        exact picks'
  · exact Contract.fail_bind True.intro

/-- A `cal` block records what its body records, and its body's calls choose as they would at
the top level. -/
theorem cal_chooses {body : List Stmt} (range : TextRange)
    (hbody : Chooses (checkBlock body) fun b' => (Stmt.walkList b').map Stmt.kind) :
    Chooses (checkKind range (.cal body)) fun k' => k' :: k'.walkBlocks.map Stmt.kind := by
  intro L t
  simp only [checkKind]
  have entered : Contract (modify fun c => { c with table := c.table.enterCalibration })
      (fun c => Recorded L c ∧ t.Grows c.table) (fun _ c => Recorded L c ∧ t.Grows c.table)
      fun _ => True :=
    Contract.modify fun _ h =>
      ⟨h.1.congr rfl, h.2.trans (SymbolTable.grows_of_symbols rfl)⟩
  refine Contract.bind entered fun _ =>
    Contract.bind (hbody L t) fun body' => ?_
  refine Contract.get_bind fun c hc => ?_
  obtain ⟨recorded, grows, picks⟩ := hc
  split
  · rename_i left
    obtain ⟨_, -, rfl⟩ := SymbolTable.leaveCalibration_eq_ok_iff.1 left
    have closed : c.table.Grows { c.table with calibrationDepth := _ } :=
      SymbolTable.grows_of_symbols rfl
    exact Contract.set_bind fun _ _ => Contract.pure fun _ same => same ▸
      (Echoes.cons (k := .cal body') ⟨rfl, fun _ _ _ same => StmtKind.noConfusion same⟩ (Echoes.of_eq rfl)).post
        ⟨recorded.congr rfl, grows.trans closed, picks.grow closed⟩
  · exact Contract.fail_bind True.intro

mutual

/-- Analyzing a statement records the overloads of the defcals in it, in pre-order, and every gate
call in it chooses among the overloads recorded before it. -/
theorem checkStmt_chooses : (s : Stmt) → Chooses (checkStmt s) fun s' => s'.walk.map Stmt.kind
  | .mk id range dur k => by
    simp only [checkStmt]
    refine Chooses.after takeId_extends fun _ _ => Chooses.get_bind fun c => ?_
    split
    · exact Chooses.fail_bind
    · exact (checkKind_chooses range k).map fun _ => Echoes.of_eq (by rw [Stmt.walk_eq]; rfl)

/-- The analysis of a statement's kind, seen through the kind it gives and the statements nested
in it, in pre-order. -/
theorem checkKind_chooses (range : TextRange) :
    (k : StmtKind) → Chooses (checkKind range k) fun k' => k' :: k'.walkBlocks.map Stmt.kind
  | .subroutine n ps ret body => by
    simp only [checkKind]
    refine Chooses.after (declareIdent_extends _ _) fun _ _ => ?_
    have opened : Chooses (withScope .subroutine range (declareParams ps >>= fun ps' =>
        checkBlock body >>= fun body' => pure (ps', body')))
        fun a => (Stmt.walkList a.2).map Stmt.kind :=
      Chooses.withScope (Chooses.after (declareParams_extends _) fun _ _ =>
        (checkBlock_chooses body).map fun _ => Echoes.of_eq rfl)
    exact opened.bind_pure fun _ => ⟨_, rfl, Echoes.cons ⟨rfl, nofun⟩ (Echoes.of_eq rfl)⟩
  | .defcal n ps qs ret body => defcal_chooses range (checkBlock_chooses body)
  | .cal body => cal_chooses range (checkBlock_chooses body)
  | .forLoop var ty it body => by
    have opened : Chooses (withScope .local range (declareIdent var (.classical ty) >>=
        fun var' => checkBlock body >>= fun body' => pure (var', body')))
        fun a => (Stmt.walkList a.2).map Stmt.kind :=
      Chooses.withScope (Chooses.after (declareIdent_extends _ _) fun _ _ =>
        (checkBlock_chooses body).map fun _ => Echoes.of_eq rfl)
    simp only [checkKind]
    cases it with
    | range start step stop =>
      refine Chooses.after (extends_leafSteps.readOnly (resolveExpr_readOnly _)) fun _ _ => ?_
      cases step with
      | some e =>
        refine Chooses.after (extends_leafSteps.readOnly (resolveExpr_readOnly _)) fun _ _ => ?_
        refine Chooses.after (extends_leafSteps.pure (R := fun _ => True) True.intro)
          fun _ _ => ?_
        refine Chooses.after (extends_leafSteps.readOnly (resolveExpr_readOnly _)) fun _ _ => ?_
        exact Chooses.after (extends_leafSteps.pure (R := fun _ => True) True.intro) fun _ _ =>
          opened.bind_pure fun _ => ⟨_, rfl, Echoes.cons ⟨rfl, nofun⟩ (Echoes.of_eq rfl)⟩
      | none =>
        refine Chooses.after (extends_leafSteps.pure (R := fun _ => True) True.intro)
          fun _ _ => ?_
        refine Chooses.after (extends_leafSteps.readOnly (resolveExpr_readOnly _)) fun _ _ => ?_
        exact Chooses.after (extends_leafSteps.pure (R := fun _ => True) True.intro) fun _ _ =>
          opened.bind_pure fun _ => ⟨_, rfl, Echoes.cons ⟨rfl, nofun⟩ (Echoes.of_eq rfl)⟩
    | set values =>
      refine Chooses.after (extends_leafSteps.readOnly (resolveExprs_readOnly _)) fun _ _ => ?_
      exact Chooses.after (extends_leafSteps.pure (R := fun _ => True) True.intro) fun _ _ =>
        opened.bind_pure fun _ => ⟨_, rfl, Echoes.cons ⟨rfl, nofun⟩ (Echoes.of_eq rfl)⟩
  | .whileLoop c body => by
    simp only [checkKind]
    refine Chooses.after (extends_leafSteps.readOnly (resolveExpr_readOnly _)) fun _ _ => ?_
    exact (Chooses.withScope (checkBlock_chooses body)).map fun _ =>
      Echoes.cons ⟨rfl, nofun⟩ (Echoes.of_eq rfl)
  | .branch c t (some e) => by
    simp only [checkKind, pure_bind]
    refine Chooses.after (extends_leafSteps.readOnly (resolveExpr_readOnly _)) fun _ _ => ?_
    exact Chooses.append (Chooses.withScope (checkBlock_chooses t))
      (Chooses.withScope (checkBlock_chooses e)) fun _ _ =>
        Echoes.cons ⟨rfl, nofun⟩ (Echoes.of_eq (by simp [StmtKind.walkBlocks]))
  | .branch c t none => by
    simp only [checkKind, pure_bind]
    refine Chooses.after (extends_leafSteps.readOnly (resolveExpr_readOnly _)) fun _ _ => ?_
    exact (Chooses.withScope (checkBlock_chooses t)).map fun _ =>
      Echoes.cons ⟨rfl, nofun⟩ (Echoes.of_eq (by simp [StmtKind.walkBlocks]))
  | .gate n args qs => checkGate_chooses n args qs range
  | .grammar _ | .port _ | .frame .. | .waveform .. | .declare .. | .input .. | .output ..
  | .expr _ | .assign .. | .ret _ | .delay .. | .play .. | .capture .. | .barrier ..
  | .update .. => checkKind_chooses_of_leaf range rfl nofun

/-- Analyzing a block records the overloads of its defcals in pre-order, and every gate call in
it chooses among the overloads recorded before it. -/
theorem checkBlock_chooses : (b : List Stmt) →
    Chooses (checkBlock b) fun b' => (Stmt.walkList b').map Stmt.kind
  | [] => by
    simp only [checkBlock]
    exact Chooses.pure (Echoes.of_eq rfl)
  | s :: rest => by
    simp only [checkBlock]
    exact Chooses.append (checkStmt_chooses s) (checkBlock_chooses rest) fun _ _ =>
      Echoes.of_eq (by rw [Stmt.walkList_cons, List.map_append, Stmt.walk_eq])

end

end Checker


/-! ### Gate calls of an analyzed program -/

/-- The defcal kind `k` serves a call of `name` with `arity` arguments on the qubits `called`
(hardware indices, `none` for a named qubit) with `score` points: it defines that name with as
many parameters, and its qubits match the call's with that score. -/
def StmtKind.Serves (name : String) (arity : Nat) (called : List (Option Nat)) (k : StmtKind)
    (score : Nat) : Prop :=
  ∃ n ps qs result body, k = .defcal n ps qs result body ∧ n.name = name ∧ ps.length = arity ∧
    QubitsMatch (qs.map Qubit.hardwareIndex?) called ∧
    score = qubitScore (qs.map Qubit.hardwareIndex?)

/-- The overload a statement kind offers a call of `name` with `arity` arguments. -/
def StmtKind.offers (name : String) (arity : Nat) (k : StmtKind) : Option Overload :=
  k.overload?.bind fun p => if p.1 = name ∧ p.2.signature.arity = arity then some p.2 else none

namespace StmtKind

theorem overload?_eq_some {k : StmtKind} {p : String × Overload} (h : k.overload? = some p) :
    ∃ n ps qs result body sym, k = .defcal n ps qs result body ∧ n.symbol = some sym ∧
      p = (n.name, ⟨qs.map Qubit.hardwareIndex?, sym, Checker.signatureOf ps result⟩) := by
  cases k <;> simp only [overload?, reduceCtorEq] at h
  case defcal n ps qs result body =>
    obtain ⟨sym, hsym, rfl⟩ := Option.map_eq_some_iff.1 h
    exact ⟨n, ps, qs, result, body, sym, rfl, hsym, rfl⟩

theorem offers_eq_some {name : String} {arity : Nat} {k : StmtKind} {o : Overload}
    (h : k.offers name arity = some o) :
    ∃ n ps qs result body, k = .defcal n ps qs result body ∧ n.name = name ∧
      ps.length = arity ∧ n.symbol = some o.symbol ∧ o.qubits = qs.map Qubit.hardwareIndex? ∧
      o.signature = Checker.signatureOf ps result := by
  obtain ⟨p, hp, offered⟩ := Option.bind_eq_some_iff.1 h
  obtain ⟨n, ps, qs, result, body, sym, rfl, hsym, rfl⟩ := overload?_eq_some hp
  split at offered
  · rename_i fits
    cases offered
    refine ⟨n, ps, qs, result, body, rfl, fits.1, ?_, hsym, rfl, rfl⟩
    simpa [Checker.signatureOf, Signature.arity] using fits.2
  · cases offered

/-- A defcal whose name carries a symbol serves a call exactly when it offers an overload whose
qubits match the call's, with the same score. -/
theorem serves_iff {k : StmtKind}
    (named : ∀ n ps qs result body, k = .defcal n ps qs result body → n.symbol.isSome)
    {name : String} {arity : Nat} {called : List (Option Nat)} {s : Nat} :
    k.Serves name arity called s ↔ ∃ o, k.offers name arity = some o ∧ o.Scores called s := by
  constructor
  · rintro ⟨n, ps, qs, result, body, rfl, hname, harity, hmatch, rfl⟩
    obtain ⟨sym, hsym⟩ := Option.isSome_iff_exists.1 (named n ps qs result body rfl)
    refine ⟨⟨qs.map Qubit.hardwareIndex?, sym, Checker.signatureOf ps result⟩, ?_,
      matchScore_eq_some_iff.2 ⟨hmatch, rfl⟩⟩
    simp [offers, overload?, hsym, hname, harity, Checker.signatureOf, Signature.arity]
  · rintro ⟨o, offered, scores⟩
    obtain ⟨n, ps, qs, result, body, rfl, hname, harity, -, hq, -⟩ := offers_eq_some offered
    obtain ⟨hmatch, rfl⟩ := matchScore_eq_some_iff.1 scores
    exact ⟨n, ps, qs, result, body, rfl, hname, harity, hq ▸ hmatch, by rw [hq]⟩

theorem eq_defcal_of_erase {k : StmtKind} {n : Ident} {ps : List Param} {qs : List Qubit}
    {result : Option Ty} {body : List Stmt} (h : k.erase = .defcal n ps qs result body) :
    ∃ n' ps' qs' body', k = .defcal n' ps' qs' result body' ∧ n = n'.erase ∧
      ps = ps'.map Param.erase ∧ qs = qs'.map Qubit.erase := by
  cases k
  case defcal n' ps' qs' result' body' =>
    simp only [erase, defcal.injEq] at h
    obtain ⟨rfl, rfl, rfl, rfl, -⟩ := h
    exact ⟨n', ps', qs', body', rfl, rfl, rfl, rfl⟩
  case branch c t e => cases e <;> cases h
  all_goals cases h

theorem eq_gate_of_erase {k : StmtKind} {n : Ident} {args : List Expr} {qs : List Qubit}
    (h : k.erase = .gate n args qs) :
    ∃ n' args' qs', k = .gate n' args' qs' ∧ n = n'.erase ∧ args = Expr.eraseList args' ∧
      qs = qs'.map Qubit.erase := by
  cases k
  case gate n' args' qs' =>
    simp only [erase, gate.injEq] at h
    obtain ⟨rfl, rfl, rfl⟩ := h
    exact ⟨n', args', qs', rfl, rfl, rfl, rfl⟩
  case branch c t e => cases e <;> cases h
  all_goals cases h

theorem map_hardwareIndex?_erase (qs : List Qubit) :
    (qs.map Qubit.erase).map Qubit.hardwareIndex? = qs.map Qubit.hardwareIndex? := by
  simp [Function.comp_def, Checker.Qubit.hardwareIndex?_erase]

/-- Whether a defcal serves a call does not depend on symbols. -/
theorem serves_erase (k : StmtKind) {name : String} {arity : Nat} {called : List (Option Nat)}
    {s : Nat} : k.erase.Serves name arity called s ↔ k.Serves name arity called s := by
  constructor
  · rintro ⟨n, ps, qs, result, body, h, hname, harity, hmatch, hs⟩
    obtain ⟨n', ps', qs', body', rfl, rfl, rfl, rfl⟩ := eq_defcal_of_erase h
    rw [map_hardwareIndex?_erase] at hmatch hs
    exact ⟨n', ps', qs', result, body', rfl, hname, by simpa using harity, hmatch, hs⟩
  · rintro ⟨n, ps, qs, result, body, rfl, hname, harity, hmatch, hs⟩
    refine ⟨n.erase, ps.map Param.erase, qs.map Qubit.erase, result, Stmt.eraseList body, rfl,
      hname, by simpa using harity, ?_, ?_⟩
    · rwa [map_hardwareIndex?_erase]
    · rwa [map_hardwareIndex?_erase]

end StmtKind

theorem Expr.length_eraseList (es : List Expr) : (Expr.eraseList es).length = es.length := by
  induction es with
  | nil => rfl
  | cons e rest ih => simp [Expr.eraseList, ih]

/-- The overloads of a name and arity recorded by a run of kinds are those the kinds offer. -/
theorem Checker.offered_filter (W : List StmtKind) (name : String) (arity : Nat) :
    (Checker.offered (overloadsIn W) name).filter (·.signature.arity == arity) =
      W.filterMap (StmtKind.offers name arity) := by
  induction W with
  | nil => rfl
  | cons k W ih =>
    rw [← List.singleton_append, overloadsIn_append, Checker.offered_append, List.filter_append,
      ih, List.filterMap_append]
    congr 1
    cases h : k.overload? with
    | none => simp [overloadsIn, h, Checker.offered, StmtKind.offers]
    | some p =>
      by_cases hn : p.1 = name <;> by_cases ha : p.2.signature.arity = arity <;>
        simp [overloadsIn, h, Checker.offered, StmtKind.offers, hn, ha]

theorem Checker.initial_overloads {registry : Registry} {c : Checker}
    (h : Checker.initial registry = .ok c) : c.overloads = [] := by
  rw [Checker.initial_eq] at h
  cases declared : SymbolTable.initial.declareGenerators registry.generators with
  | ok t =>
    rw [declared] at h
    cases h
    rfl
  | error e =>
    rw [declared] at h
    cases h

namespace Program

variable {registry : Registry} {p : Program} {a : Analyzed}

/-- The gate calls of an analyzed program chose as analysis does, among the overloads of the
defcals before them in pre-order. -/
theorem analyze_picks (h : Program.analyze registry p = .ok a) :
    Checker.Picks a.table [] ((Stmt.walkList a.program).map Stmt.kind) := by
  obtain ⟨c, c', started, run⟩ := analyze_run h
  have table : a.table = c'.table := by
    unfold Program.analyze at h
    rw [started] at h
    simp only [bind, Except.bind, run, pure, Except.pure, Except.ok.injEq] at h
    rw [← h]
  have chose := (Checker.checkBlock_chooses p [] c.table).ok
    ⟨Checker.recorded_nil (Checker.initial_overloads started), SymbolTable.Grows.refl _⟩ run
  rw [table]
  exact chose.2.2

/-- Every gate call of an analyzed program resolves to the first of the best defcals before it:
its name carries that defcal's symbol, and its arguments fit the defcal's parameter types. -/
theorem analyze_gate_resolves (h : Program.analyze registry p = .ok a) {before after : List Stmt}
    {g : Stmt} {n : Ident} {args : List Expr} {qs : List Qubit}
    (split : Stmt.walkList a.program = before ++ g :: after) (call : g.kind = .gate n args qs) :
    ∃ d s dn ps dqs result body,
      FirstBest (fun d s => d.kind.Serves n.name args.length (qs.map Qubit.hardwareIndex?) s)
        before d s ∧
      d.kind = .defcal dn ps dqs result body ∧ (∃ sym, n.symbol = some sym ∧ dn.symbol = some sym) ∧
      ∀ pa ∈ ps.zip args, (Checker.exprType a.table pa.2).assignableTo pa.1.ty = true := by
  have kinds : (Stmt.walkList a.program).map Stmt.kind =
      before.map Stmt.kind ++ .gate n args qs :: after.map Stmt.kind := by
    rw [split, List.map_append, List.map_cons, call]
  obtain ⟨o, s, best, symbol, -, fits⟩ := analyze_picks h _ n args qs _ kinds
  rw [List.nil_append, Checker.offered_filter, List.filterMap_map] at best
  have named : ∀ d ∈ before, ∀ dn ps dqs result body,
      d.kind = .defcal dn ps dqs result body → dn.symbol.isSome := by
    intro d hd dn ps dqs result body defcal
    have mem : d ∈ Stmt.walkList a.program := by
      rw [split]
      exact List.mem_append_left _ hd
    obtain ⟨sym, hsym⟩ := (analyze_declarations h).2 d mem dn (by simp [defcal, StmtKind.binders])
    simp [hsym]
  obtain ⟨d, offered, first⟩ := best.of_filterMap fun d hd _ => StmtKind.serves_iff (named d hd)
  obtain ⟨dn, ps, dqs, result, body, defcal, -, -, hsym, -, hsig⟩ := StmtKind.offers_eq_some offered
  refine ⟨d, s, dn, ps, dqs, result, body, first, defcal, ⟨o.symbol, symbol, hsym⟩, ?_⟩
  intro pa hpa
  have param : ((pa.1.name.name, pa.1.ty), pa.2) ∈ o.signature.params.zip args := by
    rw [hsig, Checker.signatureOf, List.zip_map_left]
    exact List.mem_map_of_mem hpa
  exact fits _ param

/-- A program with a gate call that no defcal before it serves is not analyzed. -/
theorem analyze_ne_ok_of_unserved {before after : List Stmt} {g : Stmt} {n : Ident}
    {args : List Expr} {qs : List Qubit} (split : Stmt.walkList p = before ++ g :: after)
    (call : g.kind = .gate n args qs)
    (unserved : ∀ d ∈ before, ∀ s, ¬ d.kind.Serves n.name args.length (qs.map Qubit.hardwareIndex?) s)
    (a : Analyzed) : Program.analyze registry p ≠ .ok a := by
  intro h
  have walks : (Stmt.walkList a.program).map Stmt.erase =
      before.map Stmt.erase ++ g.erase :: after.map Stmt.erase := by
    rw [← Stmt.walkList_erase, (Program.analyze_resolves registry p a h).1, Stmt.walkList_erase,
      split, List.map_append, List.map_cons]
  obtain ⟨before', rest, split', erased, rest'⟩ := List.map_eq_append_iff.1 walks
  obtain ⟨g', after', rfl, hg, -⟩ := List.map_eq_cons_iff.1 rest'
  have kind' : g'.kind.erase = (StmtKind.gate n args qs).erase := by
    rw [← Stmt.kind_erase, hg, Stmt.kind_erase, call]
  obtain ⟨n', args', qs', call', names, arguments, qubits⟩ := StmtKind.eq_gate_of_erase kind'
  obtain ⟨d', s, -, -, -, -, -, first, -⟩ := analyze_gate_resolves h split' call'
  obtain ⟨d, hd, same⟩ : ∃ d ∈ before, d.erase = d'.erase := by
    rw [← List.mem_map, ← erased]
    exact List.mem_map_of_mem first.mem
  have served : d'.kind.Serves n'.name args'.length (qs'.map Qubit.hardwareIndex?) s := first.1
  rw [← StmtKind.serves_erase, ← Stmt.kind_erase, ← same, Stmt.kind_erase,
    StmtKind.serves_erase] at served
  have name : n'.name = n.name := congrArg (·.name) names.symm
  have arity : args'.length = args.length := by
    rw [← Expr.length_eraseList args', ← arguments, Expr.length_eraseList]
  have called : qs'.map Qubit.hardwareIndex? = qs.map Qubit.hardwareIndex? := by
    rw [← StmtKind.map_hardwareIndex?_erase qs', ← qubits, StmtKind.map_hardwareIndex?_erase]
  rw [name, arity, called] at served
  exact unserved d hd s served

end Program

/-- Every gate call of an analyzed program resolves to a defcal before it in pre-order: among the
defcals before it with its name, as many parameters as it has arguments, and qubits that match
its own, the first of those with the highest score. Its name carries that defcal's symbol, and
its arguments fit the defcal's parameter types. A program with a gate call that no defcal before
it serves is not analyzed. -/
theorem Program.analyze_calls_best_defcal (registry : Registry) (p : Program) :
    (∀ a, Program.analyze registry p = .ok a →
      ∀ before g after n args qs, Stmt.walkList a.program = before ++ g :: after →
        g.kind = .gate n args qs →
        ∃ d s dn ps dqs result body,
          FirstBest (fun d s => d.kind.Serves n.name args.length (qs.map Qubit.hardwareIndex?) s)
            before d s ∧
          d.kind = .defcal dn ps dqs result body ∧
          (∃ sym, n.symbol = some sym ∧ dn.symbol = some sym) ∧
          ∀ pa ∈ ps.zip args, (Checker.exprType a.table pa.2).assignableTo pa.1.ty = true) ∧
    ∀ before g after n args qs, Stmt.walkList p = before ++ g :: after →
      g.kind = .gate n args qs →
      (∀ d ∈ before, ∀ s, ¬ d.kind.Serves n.name args.length (qs.map Qubit.hardwareIndex?) s) →
      ∀ a, Program.analyze registry p ≠ .ok a :=
  ⟨fun _ h _ _ _ _ _ _ split call => Program.analyze_gate_resolves h split call,
    fun _ _ _ _ _ _ split call unserved => Program.analyze_ne_ok_of_unserved split call unserved⟩


/-- A call on a hardware qubit after a defcal on a named qubit and one on that qubit is resolved;
a call on a qubit that no defcal serves is refused. -/
theorem analyze_calls_best_defcal_hardware :
    (∃ a, Program.analyze Registry.empty
        [.ofKind (.defcal ⟨"x", {}, none⟩ [] [.named ⟨"q", {}, none⟩] none []),
         .ofKind (.defcal ⟨"x", {}, none⟩ [] [.hardware 0] none []),
         .ofKind (.gate ⟨"x", {}, none⟩ [] [.hardware 0])] = .ok a ∧
      ∃ before g after n args qs, Stmt.walkList a.program = before ++ g :: after ∧
        g.kind = .gate n args qs ∧
        ∃ d s dn ps dqs result body,
          FirstBest (fun d s => d.kind.Serves n.name args.length (qs.map Qubit.hardwareIndex?) s)
            before d s ∧
          d.kind = .defcal dn ps dqs result body ∧
          (∃ sym, n.symbol = some sym ∧ dn.symbol = some sym) ∧
          ∀ pa ∈ ps.zip args, (Checker.exprType a.table pa.2).assignableTo pa.1.ty = true) ∧
    ∀ a, Program.analyze Registry.empty
        [.ofKind (.defcal ⟨"x", {}, none⟩ [] [.hardware 0] none []),
         .ofKind (.gate ⟨"x", {}, none⟩ [] [.hardware 1])] ≠ .ok a := by
  refine ⟨?_, (Program.analyze_calls_best_defcal _ _).2 [_] _ [] _ [] [.hardware 1] rfl rfl ?_⟩
  · refine exists_ok_and_of_toBool (by decide +kernel) fun a analyzed => ?_
    have walks : (Stmt.walkList a.program).map Stmt.erase = [_, _] ++ [_] :=
      (Stmt.walkList_erase a.program).symm.trans
        ((congrArg Stmt.walkList (Program.analyze_resolves _ _ _ analyzed).1).trans rfl)
    obtain ⟨before, rest, split, -, rest'⟩ := List.map_eq_append_iff.1 walks
    obtain ⟨g, after, rfl, erased, -⟩ := List.map_eq_cons_iff.1 rest'
    have kind : g.kind.erase = .gate ⟨"x", {}, none⟩ [] [.hardware 0] :=
      (Stmt.kind_erase g).symm.trans (congrArg Stmt.kind erased)
    obtain ⟨n, args, qs, call, -, -, -⟩ := StmtKind.eq_gate_of_erase kind
    exact ⟨before, g, after, n, args, qs, split, call,
      (Program.analyze_calls_best_defcal _ _).1 a analyzed before g after n args qs split call⟩
  · rintro d hd s ⟨n, ps, qs, result, body, defcal, -, -, ⟨-, placed⟩, -⟩
    rw [List.mem_singleton] at hd
    subst hd
    cases defcal
    exact absurd (placed 0 0 rfl) (by decide)

end PulseCompiler
