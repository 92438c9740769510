import PulseCompiler.Proofs.Analysis.Contract
set_option autoImplicit false

/-!
# Names resolve by the lexical rule

The analyzer resolves names in its scope table; the lexical rule (`Stmt.lexical`) reads them in
an environment of scopes. The two are in step (`Checker.Follows`) when the table's open scopes
bind what the environment's scopes bind, the table holds one symbol for each declaration made,
and every defcal overload the analyzer has recorded is a defcal of the environment. Opening,
closing and binding keep them in step, and looking a name up in the table finds its innermost
declaration in the environment (`Checker.Follows.lookup`).

A step that succeeds from a state in step with an environment ends in a state in step with
another one (`Checker.Tracks`). The analysis of a statement does so, and the statement it gives
follows the lexical rule from the first environment to the second (`Checker.checkStmt_tracks`).

Main statement: an analyzed program is the program with its identifiers annotated, every
identifier in it carries a symbol of the final table, and it follows the lexical rule from the
predefined constants and the registry's generators (`Program.analyze_resolves`).
-/

namespace PulseCompiler

theorem Scope.find?_eq_lookup (s : Scope) (name : String) :
    s.find? name = s.bindings.lookup name := by
  unfold Scope.find?
  induction s.bindings with
  | nil => rfl
  | cons b rest ih =>
    obtain ⟨n, id⟩ := b
    by_cases same : name = n
    · subst same
      simp
    · have other : (name == n) = false := beq_false_of_ne same
      simp [List.lookup_cons, other, Ne.symm same, ih]

theorem Qubit.text_erase (q : Qubit) : q.erase.text = q.text := by
  cases q <;> rfl

/-- A defcal's mangled name does not depend on the symbols of its named qubits. -/
theorem mangleDefcal_congr {name : String} {arity : Nat} {qs qs' : List Qubit}
    (h : qs'.map Qubit.erase = qs.map Qubit.erase) :
    mangleDefcal name arity qs' = mangleDefcal name arity qs := by
  have length : qs'.length = qs.length := by
    simpa using congrArg List.length h
  have texts : qs'.map Qubit.text = qs.map Qubit.text := by
    simpa [Function.comp_def, Qubit.text_erase] using congrArg (List.map Qubit.text) h
  have pieces : qs'.map (fun q => "_" ++ q.text) = qs.map (fun q => "_" ++ q.text) := by
    simpa [Function.comp_def] using congrArg (List.map ("_" ++ ·)) texts
  simp only [mangleDefcal, length, pieces]

theorem SymbolTable.ResolvesQubit.name? {t : SymbolTable} {q : Qubit} {i : Ident}
    (h : t.ResolvesQubit q) (named : q.name? = some i) : t.Resolves i := by
  cases q with
  | hardware n => cases named
  | named j =>
    cases named
    exact h

namespace Checker

theorem mem_of_overloadsOf_eq_some {c : Checker} {name : String} {os : List Overload}
    (h : c.overloadsOf name = some os) : (name, os) ∈ c.overloads := by
  obtain ⟨p, found, rfl⟩ := Option.map_eq_some_iff.1 h
  have same : p.1 = name := by simpa using List.find?_some found
  rw [← same]
  exact List.mem_of_find?_eq_some found

/-- Recording an overload adds it under its name and keeps the others. -/
theorem mem_record {c : Checker} {name : String} {o o' : Overload} {p : String × List Overload}
    (hp : p ∈ (c.record name o).overloads) (ho : o' ∈ p.2) :
    (p.1 = name ∧ o' = o) ∨ ∃ q ∈ c.overloads, q.1 = p.1 ∧ o' ∈ q.2 := by
  unfold record at hp
  split at hp
  · obtain ⟨⟨n, os⟩, hq, rfl⟩ := List.mem_map.1 hp
    dsimp only at ho ⊢
    by_cases same : n = name
    · subst same
      rw [if_pos (beq_self_eq_true n)] at ho ⊢
      rcases List.mem_append.1 ho with ho | ho
      · exact .inr ⟨(n, os), hq, rfl, ho⟩
      · exact .inl ⟨rfl, List.mem_singleton.1 ho⟩
    · rw [if_neg (by simpa using same)] at ho ⊢
      exact .inr ⟨(n, os), hq, rfl, ho⟩
  · rcases List.mem_append.1 hp with hp | hp
    · exact .inr ⟨p, hp, rfl, ho⟩
    · rw [List.mem_singleton.1 hp] at ho ⊢
      exact .inl ⟨rfl, List.mem_singleton.1 ho⟩

/-! ### The analyzer's state and the lexical environment -/

/-- The analyzer's state is in step with a lexical environment: the open scopes bind the same
names to the same declarations, the symbols are the declarations made, and each recorded defcal
overload is a defcal of the environment under its plain name. -/
structure Follows (c : Checker) (env : Lexical) : Prop where
  scopes : env.scopes = c.table.scopes.map Scope.bindings
  next : env.next = c.table.symbols.size
  defcals : ∀ p ∈ c.overloads, ∀ o ∈ p.2, (p.1, o.symbol) ∈ env.defcals

namespace Follows

variable {c : Checker} {env : Lexical}

/-- Looking a name up in the table finds its innermost declaration in the environment. -/
theorem lookup (h : c.Follows env) {name : String} {r : Resolution}
    (found : c.table.resolve name = .ok r) : env.lookup name = some r.id := by
  obtain ⟨inside, s, below, split, outside, hs, -, -⟩ := SymbolTable.resolve_eq_ok_iff.1 found
  have unbound : inside.findSome? (·.bindings.lookup name) = none :=
    List.findSome?_eq_none_iff.2 fun s' hs' => Scope.find?_eq_lookup s' name ▸ outside s' hs'
  have bound : s.bindings.lookup name = some r.id := Scope.find?_eq_lookup s name ▸ hs
  simp only [Lexical.lookup, h.scopes, List.findSome?_map, Function.comp_def, split,
    List.findSome?_append, List.findSome?_cons, unbound, bound, Option.none_or]

theorem refers (h : c.Follows env) {i : Ident} (hi : c.table.Resolves i) :
    env.refers i = true := by
  obtain ⟨r, found, hs⟩ := hi
  exact Lexical.refers_iff.2 ⟨r.id, hs, h.lookup found⟩

theorem refersAll (h : c.Follows env) {is : List Ident} (hs : ∀ i ∈ is, c.table.Resolves i) :
    is.all env.refers = true :=
  List.all_eq_true.2 fun i hi => h.refers (hs i hi)

/-- A declaration in the table binds the next declaration of the environment. -/
theorem declare (h : c.Follows env) {name : String} {kind : SymbolKind} {id : SymbolId}
    {t : SymbolTable} (hd : c.table.declare name kind = .ok (id, t)) :
    id = env.next ∧ ({ c with table := t } : Checker).Follows (env.bind name) := by
  obtain ⟨-, rfl, rfl⟩ := SymbolTable.declare_eq_ok_iff.1 hd
  refine ⟨h.next.symm, ⟨?_, ?_, h.defcals⟩⟩
  · show (env.bind name).scopes = _
    rw [SymbolTable.scopes_declared, Lexical.bind, h.scopes,
      SymbolTable.scopes_eq_current_cons c.table]
    simp [h.next]
  · simp [h.next]

/-- A defcal is bound under its mangled name and recorded under its plain one, as the lexical
rule declares it. -/
theorem declareDefcal (h : c.Follows env) {n : Ident} {arity : Nat} {qs : List Qubit}
    {kind : SymbolKind} {sym : SymbolId} {t : SymbolTable}
    (hd : c.table.declare (mangleDefcal n.name arity qs) kind = .ok (sym, t)) :
    ∃ env', env.declareDefcal { n with symbol := some sym } arity qs = some env' ∧
      ∀ o : Overload, o.symbol = sym →
        (({ c with table := t } : Checker).record n.name o).Follows env' := by
  obtain ⟨same, declared⟩ := h.declare hd
  refine ⟨_, Lexical.declareDefcal_eq_some_iff.2 ⟨by rw [same], rfl⟩, fun o ho => ?_⟩
  refine ⟨by simpa using declared.scopes, by simpa using declared.next, ?_⟩
  intro p hp o' ho'
  rcases mem_record hp ho' with ⟨hname, rfl⟩ | ⟨q, hq, hname, ho'⟩
  · rw [hname, ho, same]
    exact List.mem_cons_self
  · rw [← hname]
    exact List.mem_cons_of_mem _ (h.defcals q hq o' ho')

theorem enter (h : c.Follows env) (kind : ScopeKind) :
    ({ c with table := { c.table with inner := ⟨kind, []⟩ :: c.table.inner } } : Checker).Follows
      env.enter :=
  ⟨by simp [h.scopes, SymbolTable.scopes], h.next, h.defcals⟩

theorem leave (h : c.Follows env) {kind : ScopeKind} {t : SymbolTable}
    (hl : c.table.leave = .ok (kind, t)) : ({ c with table := t } : Checker).Follows env.leave := by
  obtain ⟨s, rest, hinner, -, rfl⟩ := SymbolTable.leave_eq_ok_iff.1 hl
  exact ⟨by simp [h.scopes, SymbolTable.scopes, hinner], h.next, h.defcals⟩

theorem enterCalibration (h : c.Follows env) :
    ({ c with table := c.table.enterCalibration } : Checker).Follows env :=
  ⟨h.scopes, h.next, h.defcals⟩

theorem leaveCalibration (h : c.Follows env) {t : SymbolTable}
    (hl : c.table.leaveCalibration = .ok t) : ({ c with table := t } : Checker).Follows env := by
  obtain ⟨n, -, rfl⟩ := SymbolTable.leaveCalibration_eq_ok_iff.1 hl
  exact ⟨h.scopes, h.next, h.defcals⟩

end Follows

/-! ### Steps in step with the lexical rule -/

/-- Run from a state in step with `env`, a step that succeeds gives a value and a state in step
with an environment `env'` such that `post a env'`. Nothing is said of a step that fails. -/
def Tracks {α : Type} (x : CheckM α) (env : Lexical) (post : α → Lexical → Prop) : Prop :=
  Contract x (Follows · env) (fun a c => ∃ env', post a env' ∧ c.Follows env') fun _ => True

namespace Tracks

variable {α β : Type} {env : Lexical} {post : α → Lexical → Prop} {post' : β → Lexical → Prop}

theorem pure {a : α} (h : post a env) : Tracks (Pure.pure a) env post :=
  Contract.pure fun _ follows => ⟨env, h, follows⟩

theorem bind {x : CheckM α} {f : α → CheckM β} (hx : Tracks x env post)
    (hf : ∀ a env', post a env' → Tracks (f a) env' post') : Tracks (x >>= f) env post' :=
  Contract.bind hx fun a c ran => by
    obtain ⟨env', hpost, follows⟩ := ran
    exact hf a env' hpost c follows

theorem bind_same {x : CheckM α} {f : α → CheckM β} (hx : Tracks x env fun _ env' => env' = env)
    (hf : ∀ a, Tracks (f a) env post') : Tracks (x >>= f) env post' :=
  hx.bind fun a _ same => same ▸ hf a

/-- A read-only step first: the rest runs on the same state, where the step's value satisfies
what the step promises. -/
theorem after {x : CheckM α} {f : α → CheckM β} {R : Checker → α → Prop} (hx : ReadOnly x R)
    (hf : ∀ c a, c.Follows env → R c a → Tracks (f a) env post') : Tracks (x >>= f) env post' := by
  intro c follows
  have ran : Contract x (· = c) (fun a c' => c' = c ∧ R c a) fun _ => True :=
    (hx c).consequence (fun _ h => h) (fun _ _ h => h) fun _ _ => trivial
  refine Contract.bind ran (fun a c' mid => ?_) c rfl
  obtain ⟨same, ha⟩ := mid
  rw [same]
  exact hf c a follows ha c follows

theorem of_readOnly {x : CheckM α} {R : Checker → α → Prop} (hx : ReadOnly x R)
    (h : ∀ c a, c.Follows env → R c a → post a env) : Tracks x env post := by
  intro c follows
  have ran : Contract x (· = c) (fun a c' => ∃ env', post a env' ∧ c'.Follows env') fun _ => True :=
    (hx c).consequence (fun _ h => h) (fun a c' ran => ?_) fun _ _ => trivial
  · exact ran c rfl
  · obtain ⟨same, ha⟩ := ran
    exact ⟨env, h c a follows ha, same ▸ follows⟩

/-- A step that changes the state but nothing the lexical rule sees. -/
theorem modify_same {f : Checker → Checker} (h : ∀ c, c.Follows env → (f c).Follows env) :
    Tracks (modify f) env fun _ env' => env' = env :=
  Contract.modify fun c follows => ⟨env, rfl, h c follows⟩

theorem get_bind {k : Checker → CheckM α} (h : ∀ c, c.Follows env → Tracks (k c) env post) :
    Tracks (MonadState.get >>= k) env post :=
  Contract.get_bind fun c follows c' same => h c follows c' (same ▸ follows)

theorem fail_bind {cause : ErrorCause} {range : TextRange} {f : α → CheckM β} :
    Tracks (Checker.fail cause range >>= f) env post' :=
  Contract.fail_bind trivial

theorem withScope {kind : ScopeKind} (notGlobal : kind ≠ .global) {range : TextRange}
    {step : CheckM α} (h : Tracks step env.enter post) :
    Tracks (Checker.withScope kind range step) env
      fun a env'' => ∃ env', post a env' ∧ env'' = env'.leave := by
  unfold Checker.withScope
  refine Contract.get_bind fun c follows => ?_
  have entered : c.table.enter kind = some { c.table with inner := ⟨kind, []⟩ :: c.table.inner } :=
    SymbolTable.enter_eq_some_iff.2 ⟨notGlobal, rfl⟩
  dsimp only
  rw [entered]
  refine Contract.set_bind fun _ _ => ?_
  refine Contract.bind (fun c' same => h c' (same ▸ follows.enter kind)) fun a => ?_
  refine Contract.get_bind fun c' inside => ?_
  obtain ⟨env', hpost, follows'⟩ := inside
  split
  · rename_i k t left
    refine Contract.set_bind fun _ _ => Contract.pure fun _ same => ?_
    exact ⟨env'.leave, ⟨env', hpost, rfl⟩, same ▸ follows'.leave left⟩
  · exact Contract.fail_bind trivial

end Tracks

theorem takeId_tracks {env : Lexical} : Tracks takeId env fun _ env' => env' = env := by
  unfold takeId
  refine Contract.get_bind fun c follows => Contract.set_bind fun _ _ =>
    Contract.pure fun _ same => ⟨env, rfl, ?_⟩
  rw [same]
  exact ⟨follows.scopes, follows.next, follows.defcals⟩

theorem declareIdent_tracks {env : Lexical} (i : Ident) (kind : SymbolKind) :
    Tracks (declareIdent i kind) env
      fun i' env' => i'.erase = i.erase ∧ env.declare i' = some env' := by
  intro c follows
  have declared : Contract (declareIdent i kind) (· = c) (fun i' c' => ∃ env',
      (i'.erase = i.erase ∧ env.declare i' = some env') ∧ c'.Follows env') fun _ => True :=
    (declareIdent_contract i kind c).consequence (fun _ h => h) (fun i' c' ran => ?_)
      fun _ _ => trivial
  · exact declared c rfl
  · obtain ⟨id, t, hd, rfl, rfl⟩ := ran
    obtain ⟨rfl, follows'⟩ := follows.declare hd
    exact ⟨env.bind i.name, ⟨rfl, Lexical.declare_eq_some_iff.2 ⟨rfl, rfl⟩⟩, follows'⟩

theorem declareParams_tracks (ps : List Param) {env : Lexical} :
    Tracks (declareParams ps) env fun ps' env' =>
      ps'.map Param.erase = ps.map Param.erase ∧ env.declareAll (ps'.map Param.name) = some env' := by
  unfold declareParams
  induction ps generalizing env with
  | nil => exact Tracks.pure ⟨rfl, rfl⟩
  | cons p ps ih =>
    simp only [List.mapM_cons, bind_assoc, pure_bind]
    refine (declareIdent_tracks p.name _).bind fun n env₁ hn => ?_
    refine ih.bind fun ps' env₂ hps => Tracks.pure ⟨?_, ?_⟩
    · simp only [List.map_cons, Param.erase, hn.1, hps.1]
    · rw [List.map_cons, Lexical.declareAll_cons, hn.2, Option.bind_some]
      exact hps.2

theorem declareQubits_tracks (qs : List Qubit) {env : Lexical} :
    Tracks (declareQubits qs) env fun qs' env' =>
      qs'.map Qubit.erase = qs.map Qubit.erase ∧
        env.declareAll (qs'.filterMap Qubit.name?) = some env' := by
  unfold declareQubits
  induction qs generalizing env with
  | nil => exact Tracks.pure ⟨rfl, rfl⟩
  | cons q qs ih =>
    cases q with
    | named i =>
      simp only [List.mapM_cons, bind_assoc, pure_bind]
      refine (declareIdent_tracks i .qubit).bind fun i' env₁ hi => ?_
      refine ih.bind fun qs' env₂ hqs => Tracks.pure ⟨?_, ?_⟩
      · simp only [List.map_cons, Qubit.erase, hi.1, hqs.1]
      · show env.declareAll (i' :: qs'.filterMap Qubit.name?) = some env₂
        rw [Lexical.declareAll_cons, hi.2, Option.bind_some]
        exact hqs.2
    | hardware n =>
      simp only [List.mapM_cons, pure_bind]
      refine ih.bind fun qs' env₁ hqs => Tracks.pure ⟨?_, hqs.2⟩
      simp only [List.map_cons, Qubit.erase, hqs.1]

/-! ### Statements -/

mutual

/-- Analyzing a statement from a state in step with `env` gives the statement with its
identifiers annotated, and it follows the lexical rule from `env` to the environment the final
state is in step with. -/
theorem checkStmt_tracks (env : Lexical) :
    (s : Stmt) → Tracks (checkStmt s) env
      fun s' env' => s'.erase = s.erase ∧ Stmt.lexical env s' = some env'
  | .mk id range dur k => by
    simp only [checkStmt]
    refine Tracks.bind_same takeId_tracks fun n => Tracks.get_bind fun c _ => ?_
    split
    · exact Tracks.fail_bind
    · refine (checkKind_tracks range env k).bind fun k' env' hk => Tracks.pure ⟨?_, ?_⟩
      · simp only [Stmt.erase, hk.1]
      · simp only [Stmt.lexical, hk.2.1, if_true, hk.2.2]

/-- Analyzing a statement's kind from a state in step with `env` annotates its identifiers: what
it looks up refers to declarations of `env`, and what it binds and reads follows the rule. -/
theorem checkKind_tracks (range : TextRange) (env : Lexical) :
    (k : StmtKind) → Tracks (checkKind range k) env fun k' env' =>
      k'.erase = k.erase ∧ k'.lookups.all env.refers = true ∧ k'.lexical env = some env'
  | .grammar g => Tracks.pure ⟨rfl, rfl, rfl⟩
  | .port n | .input n _ | .output n _ => by
    simp only [checkKind]
    refine (declareIdent_tracks n _).bind fun n' env' hn => Tracks.pure ⟨?_, rfl, hn.2⟩
    simp only [StmtKind.erase, hn.1]
  | .frame n p f ph => by
    simp only [checkKind]
    refine Tracks.after (expectType_readOnly p .port) fun _ p' follows hp => ?_
    refine Tracks.after (resolveExpr_readOnly f) fun _ f' follows' hf => ?_
    refine Tracks.after (resolveExpr_readOnly ph) fun _ ph' follows'' hph => ?_
    refine (declareIdent_tracks n .frame).bind fun n' env' hn => Tracks.pure ⟨?_, ?_, hn.2⟩
    · simp only [StmtKind.erase, hn.1, hp.1, hf.1, hph.1]
    · simp only [StmtKind.lookups, StmtKind.references, List.all_cons, List.all_append,
        follows.refers hp.2, follows'.refersAll hf.2, follows''.refersAll hph.2, Bool.and_self]
  | .waveform n v ti => by
    simp only [checkKind]
    refine Tracks.after (typed_readOnly v) fun _ typedV follows hv => ?_
    obtain ⟨v', ty⟩ := typedV
    refine Tracks.after (checkAssignable_readOnly _ _ _ _) fun _ _ _ _ => ?_
    refine (declareIdent_tracks n .waveform).bind fun n' env' hn =>
      Tracks.pure ⟨?_, follows.refersAll hv.2, hn.2⟩
    simp only [StmtKind.erase, hn.1, hv.1]
  | .declare n ty init => by
    simp only [checkKind]
    cases init with
    | none =>
      simp only [pure_bind]
      refine (declareIdent_tracks n _).bind fun n' env' hn => Tracks.pure ⟨?_, rfl, hn.2⟩
      simp only [StmtKind.erase, hn.1, Option.map_none]
    | some e =>
      refine Tracks.after (typed_readOnly e) fun _ typedE follows he => ?_
      obtain ⟨e', ety⟩ := typedE
      simp only [pure_bind]
      refine Tracks.after (checkAssignable_readOnly _ _ _ _) fun _ _ _ _ => ?_
      refine (declareIdent_tracks n _).bind fun n' env' hn =>
        Tracks.pure ⟨?_, follows.refersAll he.2, hn.2⟩
      simp only [StmtKind.erase, hn.1, Option.map_some, he.1]
  | .subroutine n ps ret body => by
    simp only [checkKind]
    refine (declareIdent_tracks n _).bind fun n' named hn => ?_
    refine (Tracks.withScope (by decide) ((declareParams_tracks ps).bind fun ps' inner hps =>
      (checkBlock_tracks inner body).bind fun body' last hbody =>
        Tracks.pure ⟨hps.1, hbody.1, inner, hps.2, hbody.2⟩)).bind
      fun r env' (hr : ∃ last, (r.1.map Param.erase = ps.map Param.erase ∧
        Stmt.eraseList r.2 = Stmt.eraseList body ∧ ∃ inner,
          named.enter.declareAll (r.1.map Param.name) = some inner ∧
            Stmt.blockLexical inner r.2 = some last) ∧ env' = last.leave) => ?_
    obtain ⟨ps', body'⟩ := r
    obtain ⟨last, ⟨hps, hbody, inner, hinner, hlex⟩, rfl⟩ := hr
    refine Tracks.pure ⟨?_, rfl, ?_⟩
    · simp only [StmtKind.erase, hn.1, hps, hbody]
    · simp only [StmtKind.lexical, hn.2, Option.bind_some, hinner, hlex, Option.map_some]
  | .defcal n ps qs ret body => by
    simp only [checkKind]
    refine Tracks.get_bind fun c follows => ?_
    split
    · rename_i r declared
      obtain ⟨sym, t⟩ := r
      obtain ⟨named, hnamed, recorded⟩ := follows.declareDefcal declared
      simp only [pure_bind]
      refine Contract.set_bind fun _ _ c' now => ?_
      dsimp only at now
      subst now
      refine Tracks.bind (Tracks.withScope (by decide) ((declareParams_tracks ps).bind
        fun ps' env₂ hps => (declareQubits_tracks qs).bind fun qs' env₃ hqs =>
          (checkBlock_tracks env₃ body).bind fun body' last hbody =>
            Tracks.pure ⟨hps.1, hqs.1, hbody.1, env₃,
              by rw [Lexical.declareAll_append, hps.2, Option.bind_some]; exact hqs.2, hbody.2⟩))
        (fun r env' (hr : ∃ last, (r.1.map Param.erase = ps.map Param.erase ∧
          r.2.1.map Qubit.erase = qs.map Qubit.erase ∧
          Stmt.eraseList r.2.2 = Stmt.eraseList body ∧ ∃ inner,
            named.enter.declareAll (r.1.map Param.name ++ r.2.1.filterMap Qubit.name?) =
              some inner ∧ Stmt.blockLexical inner r.2.2 = some last) ∧ env' = last.leave) => ?_)
        _ (recorded _ rfl)
      obtain ⟨ps', qs', body'⟩ := r
      obtain ⟨last, ⟨hps, hqs, hbody, inner, hinner, hlex⟩, rfl⟩ := hr
      dsimp only at hps hqs hbody hinner hlex
      have arity : ps'.length = ps.length := by simpa using congrArg List.length hps
      have mangled : mangleDefcal n.name ps'.length qs' = mangleDefcal n.name ps.length qs := by
        rw [arity, mangleDefcal_congr hqs]
      refine Tracks.pure ⟨?_, rfl, ?_⟩
      · simp only [StmtKind.erase, Ident.erase, hps, hqs, hbody]
      · simp only [StmtKind.lexical, Lexical.declareDefcal_congr env { n with symbol := some sym }
          mangled, hnamed, Option.bind_some, hinner, hlex, Option.map_some]
    · exact Tracks.fail_bind
  | .cal body => by
    simp only [checkKind]
    refine Tracks.bind_same (Tracks.modify_same fun _ follows => follows.enterCalibration)
      fun _ => ?_
    refine (checkBlock_tracks env body).bind fun body' last hbody => ?_
    refine Tracks.get_bind fun c follows => ?_
    split
    · rename_i t left
      refine Contract.set_bind fun _ _ => Contract.pure fun _ same => ?_
      refine ⟨last, ⟨?_, rfl, hbody.2⟩, same ▸ follows.leaveCalibration left⟩
      simp only [StmtKind.erase, hbody.1]
    · exact Tracks.fail_bind
  | .gate n args qs => by
    simp only [checkKind]
    refine Tracks.of_readOnly (checkGate_readOnly n args qs range) fun c k' follows hk => ?_
    obtain ⟨n', args', qs', os, o, rfl, erased, hname, found, ho, hsym, hargs, hqs⟩ := hk
    refine ⟨erased, ?_, ?_⟩
    · have named : (qs'.filterMap Qubit.name?).all env.refers = true := by
        refine follows.refersAll fun i hi => ?_
        obtain ⟨q, hq, hqi⟩ := List.mem_filterMap.1 hi
        exact (hqs q hq).name? hqi
      simp only [StmtKind.lookups, StmtKind.references, List.tail_cons, List.all_append,
        follows.refersAll hargs, named, Bool.and_self]
    · have recorded := follows.defcals _ (mem_of_overloadsOf_eq_some found) o ho
      simp only [StmtKind.lexical, hsym, hname, Option.any_some, List.contains_iff_mem, recorded,
        if_true]
  | .expr e => by
    simp only [checkKind]
    refine Tracks.after (resolveExpr_readOnly e) fun _ e' follows he =>
      Tracks.pure ⟨?_, follows.refersAll he.2, rfl⟩
    simp only [StmtKind.erase, he.1]
  | .assign target op v => by
    simp only [checkKind]
    refine Tracks.after (expectVariable_readOnly target) fun _ assigned follows ht => ?_
    obtain ⟨target', tty⟩ := assigned
    refine Tracks.after (typed_readOnly v) fun _ typedV follows' hv => ?_
    obtain ⟨v', vty⟩ := typedV
    refine Tracks.after (checkAssignable_readOnly _ _ _ _) fun _ _ _ _ =>
      Tracks.pure ⟨?_, ?_, rfl⟩
    · simp only [StmtKind.erase, ht.1, hv.1]
    · have refersTarget : env.refers target' = true := follows.refers ht.2
      simp only [StmtKind.lookups, StmtKind.references, List.all_cons, refersTarget,
        follows'.refersAll hv.2, Bool.and_self]
  | .ret v => by
    simp only [checkKind]
    cases v with
    | none => exact Tracks.pure ⟨rfl, rfl, rfl⟩
    | some e =>
      refine Tracks.after (resolveExpr_readOnly e) fun _ e' follows he =>
        Tracks.pure ⟨?_, follows.refersAll he.2, rfl⟩
      simp only [StmtKind.erase, Option.map_some, he.1]
  | .forLoop var ty it body => by
    have opened : ∀ it' : Iteration, it'.erase = it.erase →
        (∀ var' body', (StmtKind.forLoop var' ty it' body').lookups.all env.refers = true) →
        Tracks (withScope .local range (declareIdent var (.classical ty) >>= fun var' =>
            checkBlock body >>= fun body' => pure (var', body')) >>= fun x =>
              pure (StmtKind.forLoop x.1 ty it' x.2)) env fun k' env' =>
          k'.erase = (StmtKind.forLoop var ty it body).erase ∧
            k'.lookups.all env.refers = true ∧ k'.lexical env = some env' := by
      intro it' erased refers
      refine Tracks.bind (Tracks.withScope (by decide) ((declareIdent_tracks var _).bind
        fun var' inner hvar => (checkBlock_tracks inner body).bind fun body' last hbody =>
          Tracks.pure ⟨hvar.1, hbody.1, inner, hvar.2, hbody.2⟩))
        fun x env' (hx : ∃ last, (x.1.erase = var.erase ∧
          Stmt.eraseList x.2 = Stmt.eraseList body ∧ ∃ inner, env.enter.declare x.1 = some inner ∧
            Stmt.blockLexical inner x.2 = some last) ∧ env' = last.leave) => ?_
      obtain ⟨var', body'⟩ := x
      obtain ⟨last, ⟨hvar, hbody, inner, hinner, hlex⟩, rfl⟩ := hx
      refine Tracks.pure ⟨?_, refers _ _, ?_⟩
      · simp only [StmtKind.erase, hvar, erased, hbody]
      · simp only [StmtKind.lexical, hinner, Option.bind_some, hlex, Option.map_some]
    simp only [checkKind]
    cases it with
    | range start step stop =>
      simp only [pure_bind]
      refine Tracks.after (resolveExpr_readOnly start) fun _ start' follows hstart => ?_
      cases step with
      | some e =>
        dsimp only
        refine Tracks.after (resolveExpr_readOnly e) fun _ e' follows' he => ?_
        refine Tracks.after (resolveExpr_readOnly stop) fun _ stop' follows'' hstop => ?_
        refine opened _ ?_ fun _ _ => ?_
        · simp only [Iteration.erase, Option.map_some, hstart.1, he.1, hstop.1]
        · simp only [StmtKind.lookups, StmtKind.references, Option.map_some, Option.getD_some,
            List.all_append, follows.refersAll hstart.2, follows'.refersAll he.2,
            follows''.refersAll hstop.2, Bool.and_self]
      | none =>
        dsimp only
        refine Tracks.after (resolveExpr_readOnly stop) fun _ stop' follows' hstop => ?_
        refine opened _ ?_ fun _ _ => ?_
        · simp only [Iteration.erase, Option.map_none, hstart.1, hstop.1]
        · simp only [StmtKind.lookups, StmtKind.references, Option.map_none, Option.getD_none,
            List.append_nil, List.all_append, follows.refersAll hstart.2,
            follows'.refersAll hstop.2, Bool.and_self]
    | set values =>
      simp only [pure_bind]
      refine Tracks.after (resolveExprs_readOnly values) fun _ values' follows hvalues => ?_
      exact opened _ (by simp only [Iteration.erase, hvalues.1])
        fun _ _ => follows.refersAll hvalues.2
  | .whileLoop c body => by
    simp only [checkKind]
    refine Tracks.after (resolveExpr_readOnly c) fun _ c' follows hc => ?_
    refine (Tracks.withScope (by decide) (checkBlock_tracks env.enter body)).bind
      fun body' env' hbody => ?_
    obtain ⟨last, ⟨erased, hlex⟩, rfl⟩ := hbody
    refine Tracks.pure ⟨?_, follows.refersAll hc.2, ?_⟩
    · simp only [StmtKind.erase, hc.1, erased]
    · simp only [StmtKind.lexical, hlex, Option.map_some]
  | .branch c t (some e) => by
    simp only [checkKind]
    refine Tracks.after (resolveExpr_readOnly c) fun _ c' follows hc => ?_
    refine (Tracks.withScope (by decide) (checkBlock_tracks env.enter t)).bind
      fun t' env₁ ht => ?_
    obtain ⟨thenEnd, ⟨thenErased, thenLex⟩, rfl⟩ := ht
    refine (Tracks.withScope (by decide) (checkBlock_tracks thenEnd.leave.enter e)).bind
      fun e' env₂ he => ?_
    obtain ⟨elseEnd, ⟨elseErased, elseLex⟩, rfl⟩ := he
    refine Tracks.pure ⟨?_, follows.refersAll hc.2, ?_⟩
    · simp only [StmtKind.erase, hc.1, thenErased, elseErased]
    · simp only [StmtKind.lexical, thenLex, Option.map_some, Option.bind_some, elseLex]
  | .branch c t none => by
    simp only [checkKind]
    refine Tracks.after (resolveExpr_readOnly c) fun _ c' follows hc => ?_
    refine (Tracks.withScope (by decide) (checkBlock_tracks env.enter t)).bind
      fun t' env' ht => ?_
    obtain ⟨thenEnd, ⟨thenErased, thenLex⟩, rfl⟩ := ht
    refine Tracks.pure ⟨?_, follows.refersAll hc.2, ?_⟩
    · simp only [StmtKind.erase, hc.1, thenErased]
    · simp only [StmtKind.lexical, thenLex, Option.map_some]
  | .delay d frames => by
    simp only [checkKind]
    refine Tracks.after (typed_readOnly d) fun _ typedD follows hd => ?_
    obtain ⟨d', ty⟩ := typedD
    refine Tracks.after (checkAssignable_readOnly _ _ _ _) fun _ _ _ _ => ?_
    refine Tracks.after (ReadOnly.mapM (fun f => expectType_readOnly f .frame) frames)
      fun _ frames' follows' hframes => Tracks.pure ⟨?_, ?_, rfl⟩
    · simp only [StmtKind.erase, hd.1, hframes.1]
    · simp only [StmtKind.lookups, StmtKind.references, List.all_append, follows.refersAll hd.2,
        follows'.refersAll hframes.2, Bool.and_self]
  | .play f w | .capture f w => by
    simp only [checkKind]
    refine Tracks.after (expectType_readOnly f .frame) fun _ f' follows hf => ?_
    refine Tracks.after (typed_readOnly w) fun _ typedW follows' hw => ?_
    obtain ⟨w', ty⟩ := typedW
    refine Tracks.after (checkAssignable_readOnly _ _ _ _) fun _ _ _ _ =>
      Tracks.pure ⟨?_, ?_, rfl⟩
    · simp only [StmtKind.erase, hf.1, hw.1]
    · simp only [StmtKind.lookups, StmtKind.references, List.all_cons, follows.refers hf.2,
        follows'.refersAll hw.2, Bool.and_self]
  | .barrier frames sync => by
    simp only [checkKind]
    cases frames with
    | none => exact Tracks.pure ⟨rfl, rfl, rfl⟩
    | some fs =>
      refine Tracks.after (ReadOnly.mapM (fun f => expectType_readOnly f .frame) fs)
        fun _ fs' follows hfs => Tracks.pure ⟨?_, follows.refersAll hfs.2, rfl⟩
      simp only [StmtKind.erase, Option.map_some, hfs.1]
  | .update op f v => by
    simp only [checkKind]
    refine Tracks.after (expectType_readOnly f .frame) fun _ f' follows hf => ?_
    refine Tracks.after (resolveExpr_readOnly v) fun _ v' follows' hv =>
      Tracks.pure ⟨?_, ?_, rfl⟩
    · simp only [StmtKind.erase, hf.1, hv.1]
    · simp only [StmtKind.lookups, StmtKind.references, List.all_cons, follows.refers hf.2,
        follows'.refersAll hv.2, Bool.and_self]

/-- Analyzing a block from a state in step with `env` annotates it, and it follows the lexical
rule from `env`. -/
theorem checkBlock_tracks (env : Lexical) :
    (b : List Stmt) → Tracks (checkBlock b) env fun b' env' =>
      Stmt.eraseList b' = Stmt.eraseList b ∧ Stmt.blockLexical env b' = some env'
  | [] => Tracks.pure ⟨rfl, rfl⟩
  | s :: rest => by
    simp only [checkBlock]
    refine (checkStmt_tracks env s).bind fun s' env₁ hs => ?_
    refine (checkBlock_tracks env₁ rest).bind fun rest' env₂ hrest => Tracks.pure ⟨?_, ?_⟩
    · simp only [Stmt.eraseList, hs.1, hrest.1]
    · simp only [Stmt.blockLexical, hs.2, Option.bind_some, hrest.2]

end

/-! ### The analyzer's starting state -/

/-- The predefined constants are bound in the table as their names are bound in the global
scope. -/
theorem builtins_follow :
    (⟨SymbolTable.initial, [], 0⟩ : Checker).Follows
      ((builtinConstants.map Prod.fst).foldl Lexical.bind Lexical.empty) :=
  ⟨rfl, rfl, by simp⟩

theorem declareGenerators_follows :
    ∀ {t t' : SymbolTable} {gs : List Generator} {env : Lexical},
      t.declareGenerators gs = .ok t' → (⟨t, [], 0⟩ : Checker).Follows env →
        (⟨t', [], 0⟩ : Checker).Follows ((gs.map Generator.name).foldl Lexical.bind env)
  | _, _, [], _, h, follows => by
    cases h
    exact follows
  | t, t', g :: gs, env, h, follows => by
    simp only [SymbolTable.declareGenerators] at h
    split at h
    · rename_i id t'' declared
      have rest := declareGenerators_follows h (follows.declare declared).2
      exact rest
    · cases h

/-- The analysis starts in step with the environment of the predefined constants and the
registry's generators. -/
theorem initial_follows {registry : Registry} {c : Checker} (h : initial registry = .ok c) :
    c.Follows (Lexical.initial registry) := by
  rw [initial_eq] at h
  cases declared : SymbolTable.initial.declareGenerators registry.generators with
  | ok t =>
    rw [declared] at h
    cases h
    rw [Lexical.initial, List.foldl_append]
    exact declareGenerators_follows declared builtins_follow
  | error e =>
    rw [declared] at h
    cases h

end Checker

/-- An analyzed program is the program with its identifiers annotated. Every identifier in it
carries a symbol of the final table, and it follows the lexical rule from the predefined
constants and the registry's generators, with one declaration for each symbol of the table. -/
theorem Program.analyze_resolves (registry : Registry) (p : Program) (a : Analyzed)
    (h : Program.analyze registry p = .ok a) :
    Stmt.eraseList a.program = Stmt.eraseList p ∧
    (∀ i ∈ Program.idents a.program, ∃ s, i.symbol = some s ∧ s < a.table.symbols.size) ∧
    ∃ env, Stmt.blockLexical (Lexical.initial registry) a.program = some env ∧
      env.next = a.table.symbols.size := by
  unfold Program.analyze at h
  cases started : Checker.initial registry with
  | error e =>
    rw [started] at h
    cases h
  | ok c =>
    rw [started] at h
    simp only [bind, Except.bind] at h
    cases run : (Checker.checkBlock p).run c with
    | error e =>
      rw [run] at h
      cases h
    | ok r =>
      obtain ⟨p', c'⟩ := r
      rw [run] at h
      cases h
      have tracked := Checker.checkBlock_tracks (Lexical.initial registry) p c
        (Checker.initial_follows started)
      rw [run] at tracked
      obtain ⟨env, ⟨erased, lexical⟩, final⟩ := tracked
      have numbered := Stmt.blockLexical_numbers (Lexical.initial_bounded registry) p' lexical
      refine ⟨erased, fun i hi => ?_, env, lexical, final.next⟩
      rw [← final.next]
      exact numbered.numbered i hi

/-- A loop variable shadows a global of the same name inside the loop, while the loop's values
are read before it is bound. -/
theorem analyze_resolves_shadowed :
    ∃ a, Program.analyze Registry.empty
      [.ofKind (.declare ⟨"x", {}, none⟩ (.int none false) (some (.lit (.int 1)))),
       .ofKind (.forLoop ⟨"x", {}, none⟩ (.int none false) (.set [.ident ⟨"x", {}, none⟩])
         [.ofKind (.assign ⟨"x", {}, none⟩ none (.ident ⟨"x", {}, none⟩))])] = .ok a ∧
    Stmt.eraseList a.program = Stmt.eraseList
      [.ofKind (.declare ⟨"x", {}, none⟩ (.int none false) (some (.lit (.int 1)))),
       .ofKind (.forLoop ⟨"x", {}, none⟩ (.int none false) (.set [.ident ⟨"x", {}, none⟩])
         [.ofKind (.assign ⟨"x", {}, none⟩ none (.ident ⟨"x", {}, none⟩))])] ∧
    (∀ i ∈ Program.idents a.program, ∃ s, i.symbol = some s ∧ s < a.table.symbols.size) ∧
    ∃ env, Stmt.blockLexical (Lexical.initial Registry.empty) a.program = some env ∧
      env.next = a.table.symbols.size :=
  ⟨_, rfl, Program.analyze_resolves _ _ _ rfl⟩

end PulseCompiler
