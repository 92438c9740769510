import PulseCompiler.Proofs.Analysis.Numbering
set_option autoImplicit false

/-!
# What blocks hide

Definitions, loops and branches open a scope for their blocks, so what their blocks declare is
out of sight of every statement around them: a statement hides those declarations. A `cal` block
opens no scope, and hides only what its statements hide (`Stmt.hidden`).

A program keeps its locals (`Program.KeepsLocals`) when the statements of each of its blocks keep
apart, none referring at any depth to what another hides, and every statement keeps to itself
what it hides: its own references, and its other blocks, refer to none of it (`StmtKind.Closed`).
The property is stated on the program alone, with no environment, so that it can be carried
through passes that delete statements.

Main statement: an analyzed program keeps its locals (`Program.analyze_keepsLocals`). The
lexical rule numbers declarations in order and leaves the declarations of a closed scope out of
every later environment; and a defcal, whose name stays visible after its scope closes, stands at
the top level only.
-/

namespace PulseCompiler

/-! ### Declared, referred to and hidden -/

namespace StmtKind

/-- The symbol of the name a statement declares. -/
def declaredSymbol (k : StmtKind) : Option SymbolId := k.declared.bind Ident.symbol

/-- The symbols a statement refers to, not counting nested blocks. -/
def referencedSymbols (k : StmtKind) : List SymbolId := k.references.filterMap Ident.symbol

end StmtKind

namespace Stmt

/-- The symbols statements declare by name. -/
def declaredSymbols (ss : List Stmt) : List SymbolId := ss.filterMap (·.kind.declaredSymbol)

/-- The symbols statements refer to. -/
def referencedSymbols (ss : List Stmt) : List SymbolId := ss.flatMap (·.kind.referencedSymbols)

@[simp] theorem declaredSymbols_nil : declaredSymbols [] = [] := rfl

@[simp] theorem referencedSymbols_nil : referencedSymbols [] = [] := rfl

@[simp] theorem declaredSymbols_append (a b : List Stmt) :
    declaredSymbols (a ++ b) = declaredSymbols a ++ declaredSymbols b :=
  List.filterMap_append

@[simp] theorem referencedSymbols_append (a b : List Stmt) :
    referencedSymbols (a ++ b) = referencedSymbols a ++ referencedSymbols b :=
  List.flatMap_append

@[simp] theorem declaredSymbols_cons (s : Stmt) (rest : List Stmt) :
    declaredSymbols (s :: rest) = s.kind.declaredSymbol.toList ++ declaredSymbols rest := by
  simp only [declaredSymbols, List.filterMap_cons]
  cases s.kind.declaredSymbol <;> rfl

@[simp] theorem referencedSymbols_cons (s : Stmt) (rest : List Stmt) :
    referencedSymbols (s :: rest) = s.kind.referencedSymbols ++ referencedSymbols rest :=
  List.flatMap_cons

theorem mem_declaredSymbols {ss : List Stmt} {sym : SymbolId} :
    sym ∈ declaredSymbols ss ↔ ∃ s ∈ ss, s.kind.declaredSymbol = some sym :=
  List.mem_filterMap

theorem mem_referencedSymbols {ss : List Stmt} {sym : SymbolId} :
    sym ∈ referencedSymbols ss ↔ ∃ s ∈ ss, sym ∈ s.kind.referencedSymbols :=
  List.mem_flatMap

theorem declaredSymbols_subset {a b : List Stmt} (h : a ⊆ b) :
    declaredSymbols a ⊆ declaredSymbols b := fun _ ha =>
  have ⟨s, hs, declared⟩ := mem_declaredSymbols.1 ha
  mem_declaredSymbols.2 ⟨s, h hs, declared⟩

theorem referencedSymbols_subset {a b : List Stmt} (h : a ⊆ b) :
    referencedSymbols a ⊆ referencedSymbols b := fun _ ha =>
  have ⟨s, hs, refers⟩ := mem_referencedSymbols.1 ha
  mem_referencedSymbols.2 ⟨s, h hs, refers⟩

end Stmt

mutual
/-- What a statement hides from the statements around it: what the blocks of a definition, loop
or branch declare, since each opens a scope. A `cal` block opens none and hides what its
statements hide. -/
def Stmt.hidden : Stmt → List SymbolId
  | .mk _ _ _ k => StmtKind.hidden k

/-- What a statement of this kind hides. -/
def StmtKind.hidden : StmtKind → List SymbolId
  | .cal body => Stmt.hiddenList body
  | k => Stmt.declaredSymbols k.walkBlocks

/-- What the statements of a block hide. -/
def Stmt.hiddenList : List Stmt → List SymbolId
  | [] => []
  | s :: rest => s.hidden ++ Stmt.hiddenList rest
end

@[simp] theorem Stmt.hidden_mk (i : Nat) (r : TextRange) (d : Option SampleRange) (k : StmtKind) :
    (Stmt.mk i r d k).hidden = k.hidden := rfl

theorem Stmt.hidden_eq (s : Stmt) : s.hidden = s.kind.hidden := by
  cases s
  rfl

theorem Stmt.mem_hiddenList {b : List Stmt} {sym : SymbolId} :
    sym ∈ Stmt.hiddenList b ↔ ∃ s ∈ b, sym ∈ s.hidden := by
  induction b with
  | nil => simp [Stmt.hiddenList]
  | cons s rest ih => simp [Stmt.hiddenList, ih]

mutual
theorem Stmt.hidden_subset : (s : Stmt) → s.hidden ⊆ Stmt.declaredSymbols s.kind.walkBlocks
  | .mk _ _ _ k => StmtKind.hidden_subset k

theorem StmtKind.hidden_subset : (k : StmtKind) → k.hidden ⊆ Stmt.declaredSymbols k.walkBlocks
  | .cal body => by
    simpa only [StmtKind.hidden, StmtKind.walkBlocks] using Stmt.hiddenList_subset body
  | .grammar _ | .port _ | .frame .. | .waveform .. | .declare .. | .input .. | .output ..
  | .subroutine .. | .defcal .. | .gate .. | .expr _ | .assign .. | .ret _ | .forLoop ..
  | .whileLoop .. | .branch .. | .delay .. | .play .. | .capture .. | .barrier .. | .update .. =>
    List.Subset.refl _

/-- What the statements of a block hide they declare at some depth. -/
theorem Stmt.hiddenList_subset : (b : List Stmt) →
    Stmt.hiddenList b ⊆ Stmt.declaredSymbols (Stmt.walkList b)
  | [] => List.Subset.refl _
  | s :: rest => by
    have nested := Stmt.hidden_subset s
    have later := Stmt.hiddenList_subset rest
    intro sym hsym
    simp only [Stmt.hiddenList, List.mem_append] at hsym
    rw [Stmt.walkList_cons, Stmt.declaredSymbols_append, Stmt.declaredSymbols_cons]
    rcases hsym with here | there
    · exact List.mem_append_left _ (List.mem_append_right _ (nested here))
    · exact List.mem_append_right _ (later there)
end

/-! ### Keeping locals -/

/-- Two statements keep apart when neither refers, at any depth, to what the other hides. -/
def Stmt.Apart (s t : Stmt) : Prop :=
  s.hidden.Disjoint (Stmt.referencedSymbols t.walk) ∧
    t.hidden.Disjoint (Stmt.referencedSymbols s.walk)

/-- A statement keeps to itself what it hides: its own references avoid it, none of its blocks
refers to what another declares, and the statements of each block keep apart. -/
structure StmtKind.Closed (k : StmtKind) : Prop where
  header : k.hidden.Disjoint k.referencedSymbols
  blocks : k.blocks.Pairwise fun b c =>
    (Stmt.declaredSymbols (Stmt.walkList b)).Disjoint (Stmt.referencedSymbols (Stmt.walkList c)) ∧
      (Stmt.declaredSymbols (Stmt.walkList c)).Disjoint (Stmt.referencedSymbols (Stmt.walkList b))
  apart : ∀ b ∈ k.blocks, b.Pairwise Stmt.Apart

/-- A program keeps its locals: its statements keep apart, and every statement nested in it keeps
to itself what it hides. -/
structure Program.KeepsLocals (p : Program) : Prop where
  apart : p.Pairwise Stmt.Apart
  closed : ∀ s ∈ Stmt.walkList p, s.kind.Closed

namespace Program

theorem keepsLocals_nil : KeepsLocals [] := ⟨List.Pairwise.nil, fun _ h => nomatch h⟩

theorem keepsLocals_cons {s : Stmt} {rest : List Stmt} :
    KeepsLocals (s :: rest) ↔ (∀ t ∈ rest, s.Apart t) ∧ KeepsLocals [s] ∧ KeepsLocals rest := by
  constructor
  · rintro ⟨apart, closed⟩
    obtain ⟨first, later⟩ := List.pairwise_cons.1 apart
    refine ⟨first, ⟨List.pairwise_singleton _ _, fun t ht => closed t ?_⟩,
      ⟨later, fun t ht => closed t ?_⟩⟩
    · rw [Stmt.walkList_cons]
      rw [Stmt.walkList_cons, Stmt.walkList_nil, List.append_nil] at ht
      exact List.mem_append_left _ ht
    · rw [Stmt.walkList_cons]
      exact List.mem_append_right _ ht
  · rintro ⟨first, ⟨-, here⟩, ⟨later, there⟩⟩
    refine ⟨List.pairwise_cons.2 ⟨first, later⟩, fun t ht => ?_⟩
    rw [Stmt.walkList_cons, List.mem_append] at ht
    rcases ht with ht | ht
    · exact here t (by rw [Stmt.walkList_cons, Stmt.walkList_nil, List.append_nil]; exact ht)
    · exact there t ht

theorem keepsLocals_singleton {s : Stmt} :
    KeepsLocals [s] ↔ s.kind.Closed ∧ ∀ b ∈ s.kind.blocks, KeepsLocals b := by
  have walk : Stmt.walkList [s] = s :: s.kind.walkBlocks := by simp
  constructor
  · rintro ⟨-, closed⟩
    rw [walk] at closed
    refine ⟨closed s List.mem_cons_self, fun b hb => ⟨?_, fun t ht => closed t ?_⟩⟩
    · exact (closed s List.mem_cons_self).apart b hb
    · exact List.mem_cons_of_mem _ (Stmt.walkList_subset_walkBlocks hb ht)
  · rintro ⟨here, nested⟩
    refine ⟨List.pairwise_singleton _ _, fun t ht => ?_⟩
    rw [walk, List.mem_cons] at ht
    rcases ht with rfl | ht
    · exact here
    · rw [StmtKind.walkBlocks_eq_flatMap, List.mem_flatMap] at ht
      obtain ⟨b, hb, ht⟩ := ht
      exact (nested b hb).closed t ht

end Program

/-! ### Environments that forget -/

/-- Statements none of which is a defcal. -/
def Stmt.DefcalFree (ss : List Stmt) : Prop := ∀ t ∈ ss, t.kind.isDefcal = false

namespace Lexical

variable {env env' : Lexical} {i n : Ident} {A B : List SymbolId}

theorem mem_of_lookup {name : String} {s : SymbolId} (found : env.lookup name = some s) :
    ∃ scope ∈ env.scopes, (name, s) ∈ scope := by
  obtain ⟨scope, hscope, bound⟩ := List.exists_of_findSome?_eq_some found
  obtain ⟨before, after, rfl, -⟩ := List.lookup_eq_some_iff.1 bound
  exact ⟨_, hscope, by simp⟩

theorem declare_frame (h : env.declare i = some env') :
    env'.scopes.tail = env.scopes.tail ∧ env'.defcals = env.defcals := by
  obtain ⟨-, rfl⟩ := declare_eq_some_iff.1 h
  exact ⟨List.tail_modifyHead, rfl⟩

theorem declareAll_frame : ∀ {env env' : Lexical} {is : List Ident},
    env.declareAll is = some env' → env'.scopes.tail = env.scopes.tail ∧ env'.defcals = env.defcals
  | _, _, [], h => by
    cases h
    exact ⟨rfl, rfl⟩
  | _, _, i :: is, h => by
    rw [declareAll_cons, Option.bind_eq_some_iff] at h
    obtain ⟨named, hnamed, rest⟩ := h
    obtain ⟨scopes₁, defcals₁⟩ := declare_frame hnamed
    obtain ⟨scopes₂, defcals₂⟩ := declareAll_frame rest
    exact ⟨scopes₂.trans scopes₁, defcals₂.trans defcals₁⟩

theorem declareDefcal_scopes {arity : Nat} {qs : List Qubit}
    (h : env.declareDefcal n arity qs = some env') : env'.scopes.tail = env.scopes.tail := by
  obtain ⟨-, rfl⟩ := declareDefcal_eq_some_iff.1 h
  exact List.tail_modifyHead

/-- An environment has forgotten the symbols `A`, all numbered before it: it binds none of them,
in a scope or as a defcal. -/
structure Forgets (A : List SymbolId) (env : Lexical) : Prop where
  before : ∀ a ∈ A, a < env.next
  scopes : ∀ scope ∈ env.scopes, ∀ b ∈ scope, b.2 ∉ A
  defcals : ∀ d ∈ env.defcals, d.2 ∉ A

namespace Forgets

theorem bind (h : env.Forgets A) (name : String) : (env.bind name).Forgets A where
  before a ha := Nat.lt_succ_of_lt (h.before a ha)
  scopes := by
    intro scope hscope b hb
    obtain ⟨scopes, next, defcals⟩ := env
    cases scopes with
    | nil => simp [Lexical.bind] at hscope
    | cons first rest =>
      simp only [Lexical.bind, List.modifyHead_cons, List.mem_cons] at hscope
      rcases hscope with rfl | hscope
      · rcases List.mem_cons.1 hb with rfl | hb
        · exact fun forgotten => Nat.lt_irrefl _ (h.before _ forgotten)
        · exact h.scopes first List.mem_cons_self b hb
      · exact h.scopes scope (List.mem_cons_of_mem _ hscope) b hb
  defcals := h.defcals

theorem enter (h : env.Forgets A) : env.enter.Forgets A where
  before := h.before
  scopes := by
    intro scope hscope b hb
    rcases List.mem_cons.1 hscope with rfl | hscope
    · simp at hb
    · exact h.scopes scope hscope b hb
  defcals := h.defcals

theorem leave (h : env.Forgets A) : env.leave.Forgets A where
  before := h.before
  scopes scope hscope := h.scopes scope (List.mem_of_mem_tail hscope)
  defcals := h.defcals

theorem declare (h : env.Forgets A) (hd : env.declare i = some env') : env'.Forgets A := by
  obtain ⟨-, rfl⟩ := declare_eq_some_iff.1 hd
  exact h.bind i.name

theorem declareAll : ∀ {env env' : Lexical} {is : List Ident}, env.Forgets A →
    env.declareAll is = some env' → env'.Forgets A
  | _, _, [], h, hd => by
    cases hd
    exact h
  | _, _, i :: is, h, hd => by
    rw [declareAll_cons, Option.bind_eq_some_iff] at hd
    obtain ⟨named, hnamed, rest⟩ := hd
    exact declareAll (h.declare hnamed) rest

theorem declareDefcal {arity : Nat} {qs : List Qubit} (h : env.Forgets A)
    (hd : env.declareDefcal n arity qs = some env') : env'.Forgets A := by
  obtain ⟨-, rfl⟩ := declareDefcal_eq_some_iff.1 hd
  have bound := h.bind (mangleDefcal n.name arity qs)
  refine ⟨bound.before, bound.scopes, fun d hd => ?_⟩
  rcases List.mem_cons.1 hd with rfl | hd
  · exact fun forgotten => Nat.lt_irrefl _ (h.before _ forgotten)
  · exact h.defcals d hd

theorem append (h₁ : env.Forgets A) (h₂ : env.Forgets B) : env.Forgets (A ++ B) where
  before a ha := (List.mem_append.1 ha).elim (h₁.before a) (h₂.before a)
  scopes scope hscope b hb forgotten :=
    (List.mem_append.1 forgotten).elim (h₁.scopes scope hscope b hb) (h₂.scopes scope hscope b hb)
  defcals d hd forgotten :=
    (List.mem_append.1 forgotten).elim (h₁.defcals d hd) (h₂.defcals d hd)

/-- What an identifier refers to is bound, so it is nothing forgotten. -/
theorem disjoint_lookups (h : env.Forgets A) {is : List Ident} (refers : is.all env.refers = true) :
    A.Disjoint (is.filterMap Ident.symbol) := by
  intro a ha hmem
  obtain ⟨i, hi, hsym⟩ := List.mem_filterMap.1 hmem
  obtain ⟨s, hs, found⟩ := refers_iff.1 (List.all_eq_true.1 refers i hi)
  obtain ⟨scope, hscope, bound⟩ := mem_of_lookup found
  rw [hsym, Option.some.injEq] at hs
  subst hs
  exact h.scopes scope hscope _ bound ha

/-- The defcal a gate call names is recorded, so it is nothing forgotten. -/
theorem gate_name (h : env.Forgets A)
    (named : (n.symbol.any fun s => env.defcals.contains (n.name, s)) = true) :
    A.Disjoint ([n].filterMap Ident.symbol) := by
  cases hn : n.symbol with
  | none => simp [hn]
  | some s =>
    rw [hn, Option.any_some, List.contains_iff_mem] at named
    simpa [hn] using h.defcals _ named

end Forgets

end Lexical

/-! ### Scopes and defcals a statement leaves alone -/

mutual
/-- Following the lexical rule through a statement changes only the innermost scope, and
records a defcal only for a defcal. -/
theorem Stmt.lexical_frame : (s : Stmt) → ∀ {env env'}, Stmt.lexical env s = some env' →
    env'.scopes.tail = env.scopes.tail ∧ (Stmt.DefcalFree s.walk → env'.defcals = env.defcals)
  | .mk id range dur k, env, env', h => by
    simp only [Stmt.lexical] at h
    split at h
    · obtain ⟨scopes, defcals⟩ := StmtKind.lexical_frame k h
      refine ⟨scopes, fun free => defcals (free (.mk id range dur k) ?_) fun t ht => free t ?_⟩
      · rw [Stmt.walk_eq]
        exact List.mem_cons_self
      · rw [Stmt.walk_eq]
        exact List.mem_cons_of_mem _ ht
    · cases h

theorem StmtKind.lexical_frame : (k : StmtKind) → ∀ {env env'}, k.lexical env = some env' →
    env'.scopes.tail = env.scopes.tail ∧
      (k.isDefcal = false → Stmt.DefcalFree k.walkBlocks → env'.defcals = env.defcals)
  | .port _, _, _, h | .frame .., _, _, h | .waveform .., _, _, h | .declare .., _, _, h
  | .input .., _, _, h | .output .., _, _, h => by
    obtain ⟨scopes, defcals⟩ := Lexical.declare_frame h
    exact ⟨scopes, fun _ _ => defcals⟩
  | .grammar _, _, _, h | .expr _, _, _, h | .assign .., _, _, h | .ret _, _, _, h
  | .delay .., _, _, h | .play .., _, _, h | .capture .., _, _, h | .barrier .., _, _, h
  | .update .., _, _, h => by
    cases h
    exact ⟨rfl, fun _ _ => rfl⟩
  | .gate .., _, _, h => by
    simp only [StmtKind.lexical] at h
    split at h
    · cases h
      exact ⟨rfl, fun _ _ => rfl⟩
    · cases h
  | .subroutine n ps ret body, env, _, h => by
    simp only [StmtKind.lexical, Option.bind_eq_some_iff, Option.map_eq_some_iff] at h
    obtain ⟨named, hnamed, inner, hinner, last, hbody, rfl⟩ := h
    obtain ⟨scopes₁, defcals₁⟩ := Lexical.declare_frame hnamed
    obtain ⟨scopes₂, defcals₂⟩ := Lexical.declareAll_frame hinner
    obtain ⟨scopes₃, defcals₃⟩ := Stmt.blockLexical_frame body hbody
    refine ⟨?_, fun _ free => ?_⟩
    · rw [Lexical.leave_scopes, scopes₃, scopes₂, Lexical.enter_scopes, List.tail_cons, scopes₁]
    · rw [Lexical.leave, defcals₃ free, defcals₂, Lexical.enter, defcals₁]
  | .defcal n ps qs ret body, env, _, h => by
    simp only [StmtKind.lexical, Option.bind_eq_some_iff, Option.map_eq_some_iff] at h
    obtain ⟨named, hnamed, inner, hinner, last, hbody, rfl⟩ := h
    have scopes₁ := Lexical.declareDefcal_scopes hnamed
    obtain ⟨scopes₂, -⟩ := Lexical.declareAll_frame hinner
    obtain ⟨scopes₃, -⟩ := Stmt.blockLexical_frame body hbody
    refine ⟨?_, fun defcal _ => nomatch defcal⟩
    rw [Lexical.leave_scopes, scopes₃, scopes₂, Lexical.enter_scopes, List.tail_cons, scopes₁]
  | .cal body, _, _, h => by
    obtain ⟨scopes, defcals⟩ := Stmt.blockLexical_frame body h
    exact ⟨scopes, fun _ free => defcals free⟩
  | .forLoop var ty it body, env, _, h => by
    simp only [StmtKind.lexical, Option.bind_eq_some_iff, Option.map_eq_some_iff] at h
    obtain ⟨inner, hinner, last, hbody, rfl⟩ := h
    obtain ⟨scopes₁, defcals₁⟩ := Lexical.declare_frame hinner
    obtain ⟨scopes₂, defcals₂⟩ := Stmt.blockLexical_frame body hbody
    refine ⟨?_, fun _ free => ?_⟩
    · rw [Lexical.leave_scopes, scopes₂, scopes₁, Lexical.enter_scopes, List.tail_cons]
    · rw [Lexical.leave, defcals₂ free, defcals₁, Lexical.enter]
  | .whileLoop c body, env, _, h => by
    simp only [StmtKind.lexical, Option.map_eq_some_iff] at h
    obtain ⟨last, hbody, rfl⟩ := h
    obtain ⟨scopes, defcals⟩ := Stmt.blockLexical_frame body hbody
    refine ⟨?_, fun _ free => ?_⟩
    · rw [Lexical.leave_scopes, scopes, Lexical.enter_scopes, List.tail_cons]
    · rw [Lexical.leave, defcals free, Lexical.enter]
  | .branch c t (some e), env, _, h => by
    simp only [StmtKind.lexical, Option.bind_eq_some_iff, Option.map_eq_some_iff] at h
    obtain ⟨_, ⟨thenEnd, hthen, rfl⟩, elseEnd, helse, rfl⟩ := h
    obtain ⟨scopes₁, defcals₁⟩ := Stmt.blockLexical_frame t hthen
    obtain ⟨scopes₂, defcals₂⟩ := Stmt.blockLexical_frame e helse
    have walk : (StmtKind.branch c t (some e)).walkBlocks = Stmt.walkList t ++ Stmt.walkList e :=
      rfl
    refine ⟨?_, fun _ free => ?_⟩
    · rw [Lexical.leave_scopes, scopes₂, Lexical.enter_scopes, List.tail_cons,
        Lexical.leave_scopes, scopes₁, Lexical.enter_scopes, List.tail_cons]
    · rw [walk] at free
      rw [Lexical.leave, defcals₂ fun t' ht' => free t' (List.mem_append_right _ ht'),
        Lexical.enter, Lexical.leave, defcals₁ fun t' ht' => free t' (List.mem_append_left _ ht'),
        Lexical.enter]
  | .branch c t none, env, _, h => by
    simp only [StmtKind.lexical, Option.map_eq_some_iff] at h
    obtain ⟨last, hbody, rfl⟩ := h
    obtain ⟨scopes, defcals⟩ := Stmt.blockLexical_frame t hbody
    have walk : (StmtKind.branch c t none).walkBlocks = Stmt.walkList t := List.append_nil _
    refine ⟨?_, fun _ free => ?_⟩
    · rw [Lexical.leave_scopes, scopes, Lexical.enter_scopes, List.tail_cons]
    · rw [walk] at free
      rw [Lexical.leave, defcals free, Lexical.enter]

theorem Stmt.blockLexical_frame : (b : List Stmt) → ∀ {env env'},
    Stmt.blockLexical env b = some env' →
      env'.scopes.tail = env.scopes.tail ∧
        (Stmt.DefcalFree (Stmt.walkList b) → env'.defcals = env.defcals)
  | [], _, _, h => by
    cases h
    exact ⟨rfl, fun _ => rfl⟩
  | s :: rest, _, _, h => by
    simp only [Stmt.blockLexical, Option.bind_eq_some_iff] at h
    obtain ⟨mid, hs, hrest⟩ := h
    obtain ⟨scopes₁, defcals₁⟩ := Stmt.lexical_frame s hs
    obtain ⟨scopes₂, defcals₂⟩ := Stmt.blockLexical_frame rest hrest
    have walk : Stmt.walkList (s :: rest) = s.walk ++ Stmt.walkList rest := rfl
    refine ⟨scopes₂.trans scopes₁, fun free => ?_⟩
    rw [walk] at free
    rw [defcals₂ fun t ht => free t (List.mem_append_right _ ht),
      defcals₁ fun t ht => free t (List.mem_append_left _ ht)]
end

/-! ### What stays forgotten -/

mutual
/-- What an environment has forgotten stays forgotten through a statement that follows the
lexical rule, and the statement refers to none of it at any depth. -/
theorem Stmt.lexical_forgets {A : List SymbolId} : (s : Stmt) → ∀ {env env'}, env.Forgets A →
    Stmt.lexical env s = some env' → env'.Forgets A ∧ A.Disjoint (Stmt.referencedSymbols s.walk)
  | .mk id range dur k, env, env', forgets, h => by
    simp only [Stmt.lexical] at h
    split at h
    · rename_i refers
      obtain ⟨after, disjoint⟩ := StmtKind.lexical_forgets k forgets refers h
      rw [Stmt.walk_eq, Stmt.referencedSymbols_cons]
      exact ⟨after, disjoint⟩
    · cases h

theorem StmtKind.lexical_forgets {A : List SymbolId} : (k : StmtKind) → ∀ {env env'},
    env.Forgets A → k.lookups.all env.refers = true → k.lexical env = some env' →
      env'.Forgets A ∧ A.Disjoint (k.referencedSymbols ++ Stmt.referencedSymbols k.walkBlocks)
  | .port _, _, _, forgets, refers, h | .frame .., _, _, forgets, refers, h
  | .waveform .., _, _, forgets, refers, h | .declare .., _, _, forgets, refers, h
  | .input .., _, _, forgets, refers, h | .output .., _, _, forgets, refers, h => by
    refine ⟨forgets.declare h, ?_⟩
    simpa only [StmtKind.referencedSymbols, StmtKind.lookups, StmtKind.walkBlocks,
      Stmt.referencedSymbols_nil, List.append_nil] using forgets.disjoint_lookups refers
  | .grammar _, _, _, forgets, refers, h | .expr _, _, _, forgets, refers, h
  | .assign .., _, _, forgets, refers, h | .ret _, _, _, forgets, refers, h
  | .delay .., _, _, forgets, refers, h | .play .., _, _, forgets, refers, h
  | .capture .., _, _, forgets, refers, h | .barrier .., _, _, forgets, refers, h
  | .update .., _, _, forgets, refers, h => by
    cases h
    refine ⟨forgets, ?_⟩
    simpa only [StmtKind.referencedSymbols, StmtKind.lookups, StmtKind.walkBlocks,
      Stmt.referencedSymbols_nil, List.append_nil] using forgets.disjoint_lookups refers
  | .gate n args qs, _, _, forgets, refers, h => by
    simp only [StmtKind.lexical] at h
    split at h
    · rename_i named
      cases h
      refine ⟨forgets, ?_⟩
      have split : (StmtKind.gate n args qs).referencedSymbols =
          [n].filterMap Ident.symbol ++
            (StmtKind.gate n args qs).lookups.filterMap Ident.symbol := by
        rw [← List.filterMap_append]
        rfl
      have walk : (StmtKind.gate n args qs).walkBlocks = [] := rfl
      rw [split, walk, Stmt.referencedSymbols_nil, List.append_nil, List.disjoint_append_right]
      exact ⟨forgets.gate_name named, forgets.disjoint_lookups refers⟩
    · cases h
  | .subroutine n ps ret body, _, _, forgets, _, h => by
    simp only [StmtKind.lexical, Option.bind_eq_some_iff, Option.map_eq_some_iff] at h
    obtain ⟨named, hnamed, inner, hinner, last, hbody, rfl⟩ := h
    obtain ⟨after, nested⟩ :=
      Stmt.blockLexical_forgets body ((forgets.declare hnamed).enter.declareAll hinner) hbody
    refine ⟨after.leave, ?_⟩
    simpa [StmtKind.referencedSymbols, StmtKind.references, StmtKind.walkBlocks] using nested
  | .defcal n ps qs ret body, _, _, forgets, _, h => by
    simp only [StmtKind.lexical, Option.bind_eq_some_iff, Option.map_eq_some_iff] at h
    obtain ⟨named, hnamed, inner, hinner, last, hbody, rfl⟩ := h
    obtain ⟨after, nested⟩ :=
      Stmt.blockLexical_forgets body ((forgets.declareDefcal hnamed).enter.declareAll hinner) hbody
    refine ⟨after.leave, ?_⟩
    simpa [StmtKind.referencedSymbols, StmtKind.references, StmtKind.walkBlocks] using nested
  | .cal body, _, _, forgets, _, h => by
    obtain ⟨after, nested⟩ := Stmt.blockLexical_forgets body forgets h
    refine ⟨after, ?_⟩
    simpa [StmtKind.referencedSymbols, StmtKind.references, StmtKind.walkBlocks] using nested
  | .forLoop var ty it body, _, _, forgets, refers, h => by
    simp only [StmtKind.lexical, Option.bind_eq_some_iff, Option.map_eq_some_iff] at h
    obtain ⟨inner, hinner, last, hbody, rfl⟩ := h
    obtain ⟨after, nested⟩ := Stmt.blockLexical_forgets body (forgets.enter.declare hinner) hbody
    refine ⟨after.leave, List.disjoint_append_right.2 ⟨?_, nested⟩⟩
    simpa only [StmtKind.referencedSymbols, StmtKind.lookups] using forgets.disjoint_lookups refers
  | .whileLoop c body, _, _, forgets, refers, h => by
    simp only [StmtKind.lexical, Option.map_eq_some_iff] at h
    obtain ⟨last, hbody, rfl⟩ := h
    obtain ⟨after, nested⟩ := Stmt.blockLexical_forgets body forgets.enter hbody
    refine ⟨after.leave, List.disjoint_append_right.2 ⟨?_, nested⟩⟩
    simpa only [StmtKind.referencedSymbols, StmtKind.lookups] using forgets.disjoint_lookups refers
  | .branch c t (some e), _, _, forgets, refers, h => by
    simp only [StmtKind.lexical, Option.bind_eq_some_iff, Option.map_eq_some_iff] at h
    obtain ⟨_, ⟨thenEnd, hthen, rfl⟩, elseEnd, helse, rfl⟩ := h
    obtain ⟨afterThen, nestedThen⟩ := Stmt.blockLexical_forgets t forgets.enter hthen
    obtain ⟨afterElse, nestedElse⟩ := Stmt.blockLexical_forgets e afterThen.leave.enter helse
    have walk : (StmtKind.branch c t (some e)).walkBlocks = Stmt.walkList t ++ Stmt.walkList e :=
      rfl
    refine ⟨afterElse.leave, ?_⟩
    rw [walk, Stmt.referencedSymbols_append, List.disjoint_append_right,
      List.disjoint_append_right]
    refine ⟨?_, nestedThen, nestedElse⟩
    simpa only [StmtKind.referencedSymbols, StmtKind.lookups] using forgets.disjoint_lookups refers
  | .branch c t none, _, _, forgets, refers, h => by
    simp only [StmtKind.lexical, Option.map_eq_some_iff] at h
    obtain ⟨last, hbody, rfl⟩ := h
    obtain ⟨after, nested⟩ := Stmt.blockLexical_forgets t forgets.enter hbody
    have walk : (StmtKind.branch c t none).walkBlocks = Stmt.walkList t := List.append_nil _
    refine ⟨after.leave, ?_⟩
    rw [walk, List.disjoint_append_right]
    refine ⟨?_, nested⟩
    simpa only [StmtKind.referencedSymbols, StmtKind.lookups] using forgets.disjoint_lookups refers

theorem Stmt.blockLexical_forgets {A : List SymbolId} : (b : List Stmt) → ∀ {env env'},
    env.Forgets A → Stmt.blockLexical env b = some env' →
      env'.Forgets A ∧ A.Disjoint (Stmt.referencedSymbols (Stmt.walkList b))
  | [], _, _, forgets, h => by
    cases h
    exact ⟨forgets, List.disjoint_nil_right _⟩
  | s :: rest, _, _, forgets, h => by
    simp only [Stmt.blockLexical, Option.bind_eq_some_iff] at h
    obtain ⟨mid, hs, hrest⟩ := h
    obtain ⟨first, here⟩ := Stmt.lexical_forgets s forgets hs
    obtain ⟨after, later⟩ := Stmt.blockLexical_forgets rest first hrest
    have walk : Stmt.walkList (s :: rest) = s.walk ++ Stmt.walkList rest := rfl
    rw [walk, Stmt.referencedSymbols_append, List.disjoint_append_right]
    exact ⟨after, here, later⟩
end

/-! ### Numbers of what is declared and referred to -/

theorem StmtKind.declaredSymbol_mem_binders {k : StmtKind} {sym : SymbolId}
    (h : k.declaredSymbol = some sym) : ∃ i ∈ k.binders, i.symbol = some sym := by
  obtain ⟨n, hn, hsym⟩ := Option.bind_eq_some_iff.1 h
  refine ⟨n, ?_, hsym⟩
  cases k <;> simp_all [StmtKind.declared, StmtKind.binders]

theorem disjoint_of_le_of_lt {A B : List SymbolId} {n : Nat} (hA : ∀ a ∈ A, n ≤ a)
    (hB : ∀ b ∈ B, b < n) : A.Disjoint B :=
  fun a ha hb => Nat.lt_irrefl a (Nat.lt_of_lt_of_le (hB a hb) (hA a ha))

namespace Lexical

variable {env env' : Lexical}

theorem forgets_nil (env : Lexical) : env.Forgets [] :=
  ⟨fun _ h => (nomatch h), fun _ _ _ _ h => (nomatch h), fun _ _ h => (nomatch h)⟩

theorem Binds.between {is : List Ident} (h : env.Binds env' is) {i : Ident} (hi : i ∈ is)
    {sym : SymbolId} (hs : i.symbol = some sym) : env.next ≤ sym ∧ sym < env'.next := by
  have numbered : some sym ∈ (List.range' env.next is.length).map some := by
    rw [← h.symbols, ← hs]
    exact List.mem_map_of_mem hi
  obtain ⟨k, hk, same⟩ := List.mem_map.1 numbered
  obtain rfl := Option.some.inj same
  rw [List.mem_range'_1] at hk
  rw [h.next]
  exact hk

/-- What statements declare is numbered from where they start to where they end. -/
theorem Binds.declared_between {l : List Stmt} (h : env.Binds env' (l.flatMap (·.kind.binders)))
    {sym : SymbolId} (hs : sym ∈ Stmt.declaredSymbols l) : env.next ≤ sym ∧ sym < env'.next := by
  obtain ⟨s, hsl, declared⟩ := Stmt.mem_declaredSymbols.1 hs
  obtain ⟨i, hi, hsym⟩ := StmtKind.declaredSymbol_mem_binders declared
  exact h.between (List.mem_flatMap.2 ⟨s, hsl, hi⟩) hsym

theorem Numbers.referenced_lt {l : List Stmt} (h : env.Numbers env' (l.flatMap (·.kind.idents)))
    {sym : SymbolId} (hs : sym ∈ Stmt.referencedSymbols l) : sym < env'.next := by
  obtain ⟨s, hsl, refers⟩ := Stmt.mem_referencedSymbols.1 hs
  obtain ⟨i, hi, hsym⟩ := List.mem_filterMap.1 refers
  obtain ⟨sym', hsym', lt⟩ :=
    h.numbered i (List.mem_flatMap.2 ⟨s, hsl, List.mem_append_right _ hi⟩)
  rw [hsym, Option.some.injEq] at hsym'
  exact hsym' ▸ lt

theorem Bounded.lookups_lt (b : env.Bounded) {is : List Ident} (refers : is.all env.refers = true)
    {sym : SymbolId} (hs : sym ∈ is.filterMap Ident.symbol) : sym < env.next := by
  obtain ⟨i, hi, hsym⟩ := List.mem_filterMap.1 hs
  obtain ⟨sym', hsym', lt⟩ := b.refers (List.all_eq_true.1 refers i hi)
  rw [hsym, Option.some.injEq] at hsym'
  exact hsym' ▸ lt

/-- Closing a scope forgets what its block declared. The block is read in a scope opened on top
of the scopes of `outer`, with no defcal in it; leaving the scope leaves only the outer scopes
and defcals, all numbered before the block. -/
theorem forgets_of_scope {outer inner last : Lexical} {b : List Stmt} (bounded : outer.Bounded)
    (h : Stmt.blockLexical inner b = some last) (scopes : inner.scopes.tail = outer.scopes)
    (defcals : inner.defcals = outer.defcals) (next : outer.next ≤ inner.next)
    (free : Stmt.DefcalFree (Stmt.walkList b)) :
    last.leave.Forgets (Stmt.declaredSymbols (Stmt.walkList b)) := by
  have numbered := Stmt.blockLexical_binds b h
  obtain ⟨scopes', defcals'⟩ := Stmt.blockLexical_frame b h
  have fresh : ∀ sym, sym < outer.next → sym ∉ Stmt.declaredSymbols (Stmt.walkList b) :=
    fun sym lt declared =>
      Nat.lt_irrefl _
        (Nat.lt_of_lt_of_le lt (Nat.le_trans next (numbered.declared_between declared).1))
  refine ⟨fun a ha => (numbered.declared_between ha).2, fun scope hscope bnd hb => ?_,
    fun d hd => ?_⟩
  · rw [Lexical.leave_scopes, scopes', scopes] at hscope
    exact fresh _ (bounded.scopes scope hscope bnd hb)
  · have recorded : d ∈ last.defcals := hd
    rw [defcals' free, defcals] at recorded
    exact fresh _ (bounded.defcals d recorded)

end Lexical

theorem Stmt.walk_subset_of_mem {s : Stmt} {b : List Stmt} (h : s ∈ b) :
    s.walk ⊆ Stmt.walkList b := by
  rw [Stmt.walk_eq]
  exact List.cons_subset.2 ⟨Stmt.mem_walkList_of_mem h, Stmt.walkBlocks_subset_of_mem h⟩

/-- Defcals stand at the top level of a block: none is nested in a statement of it. -/
def Program.DefcalsTopLevel (p : Program) : Prop := ∀ s ∈ p, Stmt.DefcalFree s.kind.walkBlocks

theorem Program.DefcalsTopLevel.of_free {b : List Stmt} (free : Stmt.DefcalFree (Stmt.walkList b)) :
    Program.DefcalsTopLevel b :=
  fun _ hs t ht => free t (Stmt.walkBlocks_subset_of_mem hs ht)

/-! ### What a statement hides, it forgets -/

mutual
/-- After a statement that follows the lexical rule, the environment has forgotten what the
statement hides. -/
theorem Stmt.lexical_hides : (s : Stmt) → ∀ {env env'}, env.Bounded →
    Stmt.DefcalFree s.kind.walkBlocks → Stmt.lexical env s = some env' → env'.Forgets s.hidden
  | .mk id range dur k, env, env', bounded, free, h => by
    simp only [Stmt.lexical] at h
    split at h
    · exact StmtKind.lexical_hides k bounded free h
    · cases h

theorem StmtKind.lexical_hides : (k : StmtKind) → ∀ {env env'}, env.Bounded →
    Stmt.DefcalFree k.walkBlocks → k.lexical env = some env' → env'.Forgets k.hidden
  | .grammar _, _, env', _, _, _ | .port _, _, env', _, _, _ | .frame .., _, env', _, _, _
  | .waveform .., _, env', _, _, _ | .declare .., _, env', _, _, _ | .input .., _, env', _, _, _
  | .output .., _, env', _, _, _ | .gate .., _, env', _, _, _ | .expr _, _, env', _, _, _
  | .assign .., _, env', _, _, _ | .ret _, _, env', _, _, _ | .delay .., _, env', _, _, _
  | .play .., _, env', _, _, _ | .capture .., _, env', _, _, _ | .barrier .., _, env', _, _, _
  | .update .., _, env', _, _, _ => Lexical.forgets_nil env'
  | .subroutine n ps ret body, env, _, bounded, free, h => by
    simp only [StmtKind.lexical, Option.bind_eq_some_iff, Option.map_eq_some_iff] at h
    obtain ⟨named, hnamed, inner, hinner, last, hbody, rfl⟩ := h
    have declared := Lexical.Numbers.declare bounded hnamed
    have params := Lexical.Numbers.declareAll declared.bounded.enter hinner
    obtain ⟨scopes, defcals⟩ := Lexical.declareAll_frame hinner
    exact Lexical.forgets_of_scope declared.bounded hbody scopes defcals params.next_le free
  | .defcal n ps qs ret body, env, _, bounded, free, h => by
    simp only [StmtKind.lexical, Option.bind_eq_some_iff, Option.map_eq_some_iff] at h
    obtain ⟨named, hnamed, inner, hinner, last, hbody, rfl⟩ := h
    have declared := Lexical.Numbers.declareDefcal bounded hnamed
    have params := Lexical.Numbers.declareAll declared.bounded.enter hinner
    obtain ⟨scopes, defcals⟩ := Lexical.declareAll_frame hinner
    exact Lexical.forgets_of_scope declared.bounded hbody scopes defcals params.next_le free
  | .cal body, _, _, bounded, free, h =>
    Stmt.blockLexical_hides body bounded (Program.DefcalsTopLevel.of_free free) h
  | .forLoop var ty it body, env, _, bounded, free, h => by
    simp only [StmtKind.lexical, Option.bind_eq_some_iff, Option.map_eq_some_iff] at h
    obtain ⟨inner, hinner, last, hbody, rfl⟩ := h
    have declared := Lexical.Numbers.declare bounded.enter hinner
    obtain ⟨scopes, defcals⟩ := Lexical.declare_frame hinner
    exact Lexical.forgets_of_scope bounded hbody scopes defcals declared.next_le free
  | .whileLoop c body, env, _, bounded, free, h => by
    simp only [StmtKind.lexical, Option.map_eq_some_iff] at h
    obtain ⟨last, hbody, rfl⟩ := h
    exact Lexical.forgets_of_scope bounded hbody rfl rfl (Nat.le_refl _) free
  | .branch c t (some e), env, _, bounded, free, h => by
    simp only [StmtKind.lexical, Option.bind_eq_some_iff, Option.map_eq_some_iff] at h
    obtain ⟨_, ⟨thenEnd, hthen, rfl⟩, elseEnd, helse, rfl⟩ := h
    have walk : (StmtKind.branch c t (some e)).walkBlocks = Stmt.walkList t ++ Stmt.walkList e :=
      rfl
    have freeThen : Stmt.DefcalFree (Stmt.walkList t) := fun u hu =>
      free u (walk ▸ List.mem_append_left _ hu)
    have freeElse : Stmt.DefcalFree (Stmt.walkList e) := fun u hu =>
      free u (walk ▸ List.mem_append_right _ hu)
    have numbered := (Stmt.blockLexical_numbers bounded.enter t hthen).of_enter
    have thenForgotten :=
      Lexical.forgets_of_scope bounded hthen rfl rfl (Nat.le_refl _) freeThen
    have stays := (Stmt.blockLexical_forgets e thenForgotten.enter helse).1.leave
    have elseForgotten :=
      Lexical.forgets_of_scope numbered.bounded.leave helse rfl rfl (Nat.le_refl _) freeElse
    have hidden : (StmtKind.branch c t (some e)).hidden =
        Stmt.declaredSymbols (Stmt.walkList t) ++ Stmt.declaredSymbols (Stmt.walkList e) := by
      rw [← Stmt.declaredSymbols_append, ← walk]
      rfl
    rw [hidden]
    exact stays.append elseForgotten
  | .branch c t none, env, _, bounded, free, h => by
    simp only [StmtKind.lexical, Option.map_eq_some_iff] at h
    obtain ⟨last, hbody, rfl⟩ := h
    have walk : (StmtKind.branch c t none).walkBlocks = Stmt.walkList t := List.append_nil _
    have hidden : (StmtKind.branch c t none).hidden = Stmt.declaredSymbols (Stmt.walkList t) := by
      rw [← walk]
      rfl
    rw [hidden]
    exact Lexical.forgets_of_scope bounded hbody rfl rfl (Nat.le_refl _) (walk ▸ free)

/-- After a block that follows the lexical rule, the environment has forgotten what its
statements hide. -/
theorem Stmt.blockLexical_hides : (b : List Stmt) → ∀ {env env'}, env.Bounded →
    Program.DefcalsTopLevel b → Stmt.blockLexical env b = some env' →
      env'.Forgets (Stmt.hiddenList b)
  | [], _, env', _, _, _ => Lexical.forgets_nil env'
  | s :: rest, _, _, bounded, top, h => by
    simp only [Stmt.blockLexical, Option.bind_eq_some_iff] at h
    obtain ⟨mid, hs, hrest⟩ := h
    have numbered := Stmt.lexical_numbers bounded s hs
    have first := Stmt.lexical_hides s bounded (top s List.mem_cons_self) hs
    have later := Stmt.blockLexical_hides rest numbered.bounded
      (fun t ht => top t (List.mem_cons_of_mem _ ht)) hrest
    exact (Stmt.blockLexical_forgets rest first hrest).1.append later
end

/-! ### The lexical rule keeps locals -/

namespace StmtKind

/-- A statement with no blocks hides nothing and keeps to itself. -/
theorem closed_of_leaf {k : StmtKind} (leaf : k.blocks = []) :
    k.Closed ∧ ∀ b ∈ k.blocks, Program.KeepsLocals b := by
  have hidden : k.hidden = [] := by
    cases k
    case branch c t e => cases e <;> simp [StmtKind.blocks] at leaf
    all_goals simp_all [StmtKind.blocks, StmtKind.hidden, StmtKind.walkBlocks]
  refine ⟨⟨?_, ?_, ?_⟩, ?_⟩
  · rw [hidden]
    exact List.disjoint_nil_left _
  · rw [leaf]
    exact List.Pairwise.nil
  all_goals
    intro b hb
    rw [leaf] at hb
    cases hb

/-- A statement with one block keeps to itself what it hides when its own references avoid it
and its block keeps its locals. -/
theorem closed_of_single {k : StmtKind} {b : List Stmt} (single : k.blocks = [b])
    (header : k.hidden.Disjoint k.referencedSymbols) (inner : Program.KeepsLocals b) :
    k.Closed ∧ ∀ c ∈ k.blocks, Program.KeepsLocals c := by
  have only : ∀ c ∈ k.blocks, c = b := fun c hc => by
    rw [single] at hc
    exact List.mem_singleton.1 hc
  refine ⟨⟨header, single ▸ List.pairwise_singleton _ _, fun c hc => ?_⟩, fun c hc => ?_⟩
  · rw [only c hc]
    exact inner.apart
  · rw [only c hc]
    exact inner

end StmtKind

mutual
/-- A statement that follows the lexical rule, with no defcal nested in it, keeps its locals. -/
theorem Stmt.lexical_keepsLocals : (s : Stmt) → ∀ {env env'}, env.Bounded →
    Stmt.DefcalFree s.kind.walkBlocks → Stmt.lexical env s = some env' → Program.KeepsLocals [s]
  | .mk id range dur k, env, env', bounded, free, h => by
    simp only [Stmt.lexical] at h
    split at h
    · rename_i refers
      exact Program.keepsLocals_singleton.2 (StmtKind.lexical_keepsLocals k bounded free refers h)
    · cases h

theorem StmtKind.lexical_keepsLocals : (k : StmtKind) → ∀ {env env'}, env.Bounded →
    Stmt.DefcalFree k.walkBlocks → k.lookups.all env.refers = true → k.lexical env = some env' →
      k.Closed ∧ ∀ b ∈ k.blocks, Program.KeepsLocals b
  | .grammar _, _, _, _, _, _, _ | .port _, _, _, _, _, _, _ | .frame .., _, _, _, _, _, _
  | .waveform .., _, _, _, _, _, _ | .declare .., _, _, _, _, _, _ | .input .., _, _, _, _, _, _
  | .output .., _, _, _, _, _, _ | .gate .., _, _, _, _, _, _ | .expr _, _, _, _, _, _, _
  | .assign .., _, _, _, _, _, _ | .ret _, _, _, _, _, _, _ | .delay .., _, _, _, _, _, _
  | .play .., _, _, _, _, _, _ | .capture .., _, _, _, _, _, _ | .barrier .., _, _, _, _, _, _
  | .update .., _, _, _, _, _, _ => StmtKind.closed_of_leaf rfl
  | .subroutine n ps ret body, env, _, bounded, free, _, h => by
    simp only [StmtKind.lexical, Option.bind_eq_some_iff, Option.map_eq_some_iff] at h
    obtain ⟨named, hnamed, inner, hinner, last, hbody, rfl⟩ := h
    have params := Lexical.Numbers.declareAll (Lexical.Numbers.declare bounded hnamed).bounded.enter
      hinner
    exact StmtKind.closed_of_single rfl (List.disjoint_nil_right _)
      (Stmt.blockLexical_keepsLocals body params.bounded (Program.DefcalsTopLevel.of_free free)
        hbody)
  | .defcal n ps qs ret body, env, _, bounded, free, _, h => by
    simp only [StmtKind.lexical, Option.bind_eq_some_iff, Option.map_eq_some_iff] at h
    obtain ⟨named, hnamed, inner, hinner, last, hbody, rfl⟩ := h
    have params := Lexical.Numbers.declareAll
      (Lexical.Numbers.declareDefcal bounded hnamed).bounded.enter hinner
    exact StmtKind.closed_of_single rfl (List.disjoint_nil_right _)
      (Stmt.blockLexical_keepsLocals body params.bounded (Program.DefcalsTopLevel.of_free free)
        hbody)
  | .cal body, _, _, bounded, free, _, h =>
    StmtKind.closed_of_single rfl (List.disjoint_nil_right _)
      (Stmt.blockLexical_keepsLocals body bounded (Program.DefcalsTopLevel.of_free free) h)
  | .forLoop var ty it body, env, _, bounded, free, refers, h => by
    simp only [StmtKind.lexical, Option.bind_eq_some_iff, Option.map_eq_some_iff] at h
    obtain ⟨inner, hinner, last, hbody, rfl⟩ := h
    have declared := Lexical.Numbers.declare bounded.enter hinner
    have numbered := Stmt.blockLexical_binds body hbody
    refine StmtKind.closed_of_single rfl (disjoint_of_le_of_lt (n := env.next) (fun a ha => ?_)
      fun r hr => bounded.lookups_lt refers hr)
      (Stmt.blockLexical_keepsLocals body declared.bounded (Program.DefcalsTopLevel.of_free free)
        hbody)
    exact Nat.le_trans declared.next_le (numbered.declared_between ha).1
  | .whileLoop c body, env, _, bounded, free, refers, h => by
    simp only [StmtKind.lexical, Option.map_eq_some_iff] at h
    obtain ⟨last, hbody, rfl⟩ := h
    have numbered := Stmt.blockLexical_binds body hbody
    exact StmtKind.closed_of_single rfl
      (disjoint_of_le_of_lt (n := env.next) (fun a ha => (numbered.declared_between ha).1)
        fun r hr => bounded.lookups_lt refers hr)
      (Stmt.blockLexical_keepsLocals body bounded.enter (Program.DefcalsTopLevel.of_free free)
        hbody)
  | .branch c t (some e), env, _, bounded, free, refers, h => by
    simp only [StmtKind.lexical, Option.bind_eq_some_iff, Option.map_eq_some_iff] at h
    obtain ⟨_, ⟨thenEnd, hthen, rfl⟩, elseEnd, helse, rfl⟩ := h
    have walk : (StmtKind.branch c t (some e)).walkBlocks = Stmt.walkList t ++ Stmt.walkList e :=
      rfl
    have freeThen : Stmt.DefcalFree (Stmt.walkList t) := fun u hu =>
      free u (walk ▸ List.mem_append_left _ hu)
    have freeElse : Stmt.DefcalFree (Stmt.walkList e) := fun u hu =>
      free u (walk ▸ List.mem_append_right _ hu)
    have numberedThen := (Stmt.blockLexical_numbers bounded.enter t hthen).of_enter
    have bindsThen := Stmt.blockLexical_binds t hthen
    have bindsElse := Stmt.blockLexical_binds e helse
    have thenForgotten := Lexical.forgets_of_scope bounded hthen rfl rfl (Nat.le_refl _) freeThen
    have keepsThen := Stmt.blockLexical_keepsLocals t bounded.enter
      (Program.DefcalsTopLevel.of_free freeThen) hthen
    have keepsElse := Stmt.blockLexical_keepsLocals e numberedThen.bounded.leave.enter
      (Program.DefcalsTopLevel.of_free freeElse) helse
    have hidden : (StmtKind.branch c t (some e)).hidden =
        Stmt.declaredSymbols (Stmt.walkList t) ++ Stmt.declaredSymbols (Stmt.walkList e) := by
      rw [← Stmt.declaredSymbols_append, ← walk]
      rfl
    refine ⟨⟨?_, ?_, ?_⟩, ?_⟩
    · rw [hidden]
      refine disjoint_of_le_of_lt (n := env.next) (fun a ha => ?_)
        fun r hr => bounded.lookups_lt refers hr
      rcases List.mem_append.1 ha with ha | ha
      · exact (bindsThen.declared_between ha).1
      · exact Nat.le_trans numberedThen.next_le (bindsElse.declared_between ha).1
    · refine List.pairwise_pair.2 ⟨(Stmt.blockLexical_forgets e thenForgotten.enter helse).2, ?_⟩
      exact disjoint_of_le_of_lt (n := thenEnd.next) (fun a ha => (bindsElse.declared_between ha).1)
        fun r hr => numberedThen.referenced_lt hr
    · intro b hb
      rcases List.mem_pair.1 hb with rfl | rfl
      · exact keepsThen.apart
      · exact keepsElse.apart
    · intro b hb
      rcases List.mem_pair.1 hb with rfl | rfl
      · exact keepsThen
      · exact keepsElse
  | .branch c t none, env, _, bounded, free, refers, h => by
    simp only [StmtKind.lexical, Option.map_eq_some_iff] at h
    obtain ⟨last, hbody, rfl⟩ := h
    have walk : (StmtKind.branch c t none).walkBlocks = Stmt.walkList t := List.append_nil _
    have numbered := Stmt.blockLexical_binds t hbody
    have hidden : (StmtKind.branch c t none).hidden = Stmt.declaredSymbols (Stmt.walkList t) := by
      rw [← walk]
      rfl
    refine StmtKind.closed_of_single rfl ?_
      (Stmt.blockLexical_keepsLocals t bounded.enter (Program.DefcalsTopLevel.of_free (walk ▸ free))
        hbody)
    rw [hidden]
    exact disjoint_of_le_of_lt (n := env.next) (fun a ha => (numbered.declared_between ha).1)
      fun r hr => bounded.lookups_lt refers hr

/-- A block that follows the lexical rule, with defcals at its top level only, keeps its locals:
what a statement hides is forgotten before the statements after it, and numbered after the
statements before it. -/
theorem Stmt.blockLexical_keepsLocals : (b : List Stmt) → ∀ {env env'}, env.Bounded →
    Program.DefcalsTopLevel b → Stmt.blockLexical env b = some env' → Program.KeepsLocals b
  | [], _, _, _, _, _ => Program.keepsLocals_nil
  | s :: rest, env, env', bounded, top, h => by
    simp only [Stmt.blockLexical, Option.bind_eq_some_iff] at h
    obtain ⟨mid, hs, hrest⟩ := h
    have numbered := Stmt.lexical_numbers bounded s hs
    have binds := Stmt.blockLexical_binds rest hrest
    have topRest : Program.DefcalsTopLevel rest := fun t ht => top t (List.mem_cons_of_mem _ ht)
    have forgotten := Stmt.blockLexical_forgets rest
      (Stmt.lexical_hides s bounded (top s List.mem_cons_self) hs) hrest
    refine Program.keepsLocals_cons.2 ⟨fun t ht => ⟨?_, ?_⟩,
      Stmt.lexical_keepsLocals s bounded (top s List.mem_cons_self) hs,
      Stmt.blockLexical_keepsLocals rest numbered.bounded topRest hrest⟩
    · exact List.disjoint_of_subset_right
        (Stmt.referencedSymbols_subset (Stmt.walk_subset_of_mem ht)) forgotten.2
    · refine disjoint_of_le_of_lt (n := mid.next) (fun a ha => ?_)
        fun r hr => numbered.referenced_lt hr
      have nested := Stmt.hidden_subset t ha
      have inRest := Stmt.declaredSymbols_subset
        (List.Subset.trans (Stmt.walkBlocks_subset_of_mem ht) (List.Subset.refl _)) nested
      exact (binds.declared_between inRest).1
end

/-! ### Defcals stand at the top level -/

theorem StmtKind.isDefcal_of_legalIn {chain : List StmtKind} {k : StmtKind}
    (legal : k.legalIn chain = true) (nested : chain ≠ []) : k.isDefcal = false := by
  cases k <;> simp_all [StmtKind.legalIn, StmtKind.isDefcal]

mutual
theorem Stmt.placedIn_free : (s : Stmt) → ∀ {chain}, s.placedIn chain = true →
    Stmt.DefcalFree s.kind.walkBlocks
  | .mk _ _ _ k, chain, h => by
    simp only [Stmt.placedIn, Bool.and_eq_true] at h
    exact StmtKind.blocksPlacedIn_free k (List.cons_ne_nil _ _) h.2

theorem StmtKind.blocksPlacedIn_free : (k : StmtKind) → ∀ {chain}, chain ≠ [] →
    k.blocksPlacedIn chain = true → Stmt.DefcalFree k.walkBlocks
  | .subroutine _ _ _ b, _, nested, h | .defcal _ _ _ _ b, _, nested, h | .cal b, _, nested, h
  | .forLoop _ _ _ b, _, nested, h | .whileLoop _ b, _, nested, h =>
    Stmt.blockPlacedIn_free b nested h
  | .branch _ t (some e), _, nested, h => by
    simp only [StmtKind.blocksPlacedIn, Bool.and_eq_true] at h
    intro u hu
    rcases List.mem_append.1 hu with hu | hu
    · exact Stmt.blockPlacedIn_free t nested h.1 u hu
    · exact Stmt.blockPlacedIn_free e nested h.2 u hu
  | .branch _ t none, _, nested, h => by
    intro u hu
    rw [StmtKind.walkBlocks, List.append_nil] at hu
    exact Stmt.blockPlacedIn_free t nested h u hu
  | .grammar _, _, _, _ | .port _, _, _, _ | .frame .., _, _, _ | .waveform .., _, _, _
  | .declare .., _, _, _ | .input .., _, _, _ | .output .., _, _, _ | .gate .., _, _, _
  | .expr _, _, _, _ | .assign .., _, _, _ | .ret _, _, _, _ | .delay .., _, _, _
  | .play .., _, _, _ | .capture .., _, _, _ | .barrier .., _, _, _ | .update .., _, _, _ =>
    fun _ hu => nomatch hu

/-- Nothing in a block placed inside another statement is a defcal. -/
theorem Stmt.blockPlacedIn_free : (b : List Stmt) → ∀ {chain}, chain ≠ [] →
    Stmt.blockPlacedIn chain b = true → Stmt.DefcalFree (Stmt.walkList b)
  | [], _, _, _ => fun _ hu => nomatch hu
  | .mk i r d k :: rest, chain, nested, h => by
    simp only [Stmt.blockPlacedIn, Stmt.placedIn, Bool.and_eq_true] at h
    obtain ⟨⟨legal, blocks⟩, later⟩ := h
    intro u hu
    rw [Stmt.walkList_cons, List.mem_append, List.mem_cons] at hu
    rcases hu with (rfl | hu) | hu
    · exact StmtKind.isDefcal_of_legalIn legal nested
    · exact StmtKind.blocksPlacedIn_free k (List.cons_ne_nil _ _) blocks u hu
    · exact Stmt.blockPlacedIn_free rest nested later u hu
end

theorem Program.DefcalsTopLevel.of_placed {p : Program} (placed : p.PlacedLegally) :
    p.DefcalsTopLevel := by
  unfold Program.PlacedLegally at placed
  induction p with
  | nil => exact fun _ hs => nomatch hs
  | cons s rest ih =>
    simp only [Stmt.blockPlacedIn, Bool.and_eq_true] at placed
    intro t ht
    rcases List.mem_cons.1 ht with rfl | ht
    · exact Stmt.placedIn_free t placed.1
    · exact ih placed.2 t ht

/-! ### Forgetting symbols keeps the shape -/

theorem StmtKind.isDefcal_erase (k : StmtKind) : k.erase.isDefcal = k.isDefcal := by
  cases k
  case branch c t e => cases e <;> rfl
  all_goals rfl

theorem Stmt.eraseList_eq_map : (b : List Stmt) → Stmt.eraseList b = b.map Stmt.erase
  | [] => rfl
  | s :: rest => by rw [Stmt.eraseList, Stmt.eraseList_eq_map rest, List.map_cons]

/-- Where defcals stand does not depend on symbols and numbers. -/
theorem Program.DefcalsTopLevel.of_erase {p q : Program}
    (same : Stmt.eraseList p = Stmt.eraseList q) (top : q.DefcalsTopLevel) : p.DefcalsTopLevel := by
  rw [Stmt.eraseList_eq_map, Stmt.eraseList_eq_map] at same
  intro s hs t ht
  obtain ⟨s', hs', erased⟩ : ∃ s' ∈ q, s'.erase = s.erase := by
    rw [← List.mem_map, ← same]
    exact List.mem_map_of_mem hs
  have nested : t.erase ∈ s'.kind.walkBlocks.map Stmt.erase := by
    rw [← StmtKind.walkBlocks_erase, ← Stmt.kind_erase, erased, Stmt.kind_erase,
      StmtKind.walkBlocks_erase]
    exact List.mem_map_of_mem ht
  obtain ⟨t', ht', same'⟩ := List.mem_map.1 nested
  have defcal := congrArg (fun u : Stmt => u.kind.isDefcal) same'
  simp only [Stmt.kind_erase, StmtKind.isDefcal_erase] at defcal
  rw [← defcal]
  exact top s' hs' t' ht'

/-! ### Analyzed programs -/

/-- An analyzed program keeps its locals: nothing refers to a declaration of a definition, loop or
branch from outside it. -/
theorem Program.analyze_keepsLocals {registry : Registry} {p : Program} {a : Analyzed}
    (h : Program.analyze registry p = .ok a) : a.program.KeepsLocals := by
  obtain ⟨env, lexical⟩ := Program.analyze_lexical h
  have placed := (Program.analyze_placement registry p).1 ⟨a, h⟩
  have same := (Program.analyze_resolves registry p a h).1
  exact Stmt.blockLexical_keepsLocals a.program (Lexical.initial_bounded registry)
    (Program.DefcalsTopLevel.of_erase same (Program.DefcalsTopLevel.of_placed placed)) lexical

end PulseCompiler
