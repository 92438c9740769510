import PulseCompiler.Split
import PulseCompiler.Proofs.Analysis.Numbering
import PulseCompiler.Proofs.Timing.Scope
import Mathlib.Data.List.Forall2
set_option autoImplicit false

/-!
# Splitting across cores

The program of a core is the whole program with statements left out. Every statement of it is
the copy a statement of the whole program splits into, in the same order
(`CoreView.splitBlock_copies`): the same number, range and duration, a kind with the same
keyword and barrier times, and blocks split in turn (`CoreView.splitKind_shape`).

No statement that does something on the core is lost with a block around it: such a statement
makes the block around it do something, so the block stays, and so on outwards
(`CoreView.mem_splitBlock`). Plays, captures, frame updates, delays with a frame left and
barriers all do something.

On an analyzed program each declaration has a symbol of its own, so the core the split reads for
a port or a frame is the setup's core of the one port declared with that symbol, or of the port
the one frame with that symbol is declared on (`CoreAffinity.ofProgram_ports`,
`CoreAffinity.ofProgram_frames`), and statement numbers tell copies apart.

Main statement: splitting an analyzed program keeps each statement on exactly the cores it acts
on (`Program.splitByCore_faithful`).
-/

namespace PulseCompiler

/-! ### Subsequences related pointwise -/

section SublistForall₂

variable {α β : Type} {R S : α → β → Prop} {l₁ l₃ : List α} {l₂ l₄ : List β}

theorem sublistForall₂_skip (h : List.SublistForall₂ R l₁ l₂) (l : List β) :
    List.SublistForall₂ R l₁ (l ++ l₂) := by
  induction l with
  | nil => exact h
  | cons b l ih => exact .cons_right ih

theorem sublistForall₂_append (h₁ : List.SublistForall₂ R l₁ l₂)
    (h₂ : List.SublistForall₂ R l₃ l₄) : List.SublistForall₂ R (l₁ ++ l₃) (l₂ ++ l₄) := by
  induction h₁ with
  | nil => exact sublistForall₂_skip h₂ _
  | cons related _ ih => exact .cons related ih
  | cons_right _ ih => exact .cons_right ih

theorem sublistForall₂_imp (h : List.SublistForall₂ R l₁ l₂) (hR : ∀ a b, R a b → S a b) :
    List.SublistForall₂ S l₁ l₂ := by
  induction h with
  | nil => exact .nil
  | cons related _ ih => exact .cons (hR _ _ related) ih
  | cons_right _ ih => exact .cons_right ih

theorem exists_of_mem_sublistForall₂ (h : List.SublistForall₂ R l₁ l₂) {a : α} (ha : a ∈ l₁) :
    ∃ b ∈ l₂, R a b := by
  induction h with
  | nil => cases ha
  | @cons a₁ b₁ _ _ related _ ih =>
    rcases List.mem_cons.1 ha with rfl | ha
    · exact ⟨b₁, List.mem_cons_self, related⟩
    · obtain ⟨b, hb, r⟩ := ih ha
      exact ⟨b, List.mem_cons_of_mem _ hb, r⟩
  | cons_right _ ih =>
    obtain ⟨b, hb, r⟩ := ih ha
    exact ⟨b, List.mem_cons_of_mem _ hb, r⟩

theorem map_sublist_of_sublistForall₂ {γ : Type} {f : α → γ} {g : β → γ}
    (h : List.SublistForall₂ R l₁ l₂) (hR : ∀ a b, R a b → f a = g b) :
    (l₁.map f).Sublist (l₂.map g) := by
  induction h with
  | nil => exact List.nil_sublist _
  | cons related _ ih =>
    rw [List.map_cons, List.map_cons, hR _ _ related]
    exact ih.cons_cons _
  | cons_right _ ih => exact ih.cons _

end SublistForall₂

/-! ### Statements that do something -/

/-- The barrier times a statement carries: those of a barrier, none for other statements. -/
def StmtKind.syncTimes : StmtKind → List Nat
  | barrier _ times => times
  | _ => []

theorem hasEffect_cons (s : Stmt) (rest : List Stmt) :
    hasEffect (s :: rest) = (hasEffect [s] || hasEffect rest) := by
  simp [hasEffect]

theorem hasEffect_of_walkBlocks_ne_nil {s : Stmt} (h : s.kind.walkBlocks ≠ []) :
    hasEffect [s] = true := by
  obtain ⟨i, r, d, k⟩ := s
  cases k <;> simp_all [StmtKind.walkBlocks, hasEffect, Stmt.kind]

/-- A block does something when a statement nested in it, at any depth, does. -/
theorem hasEffect_of_mem_walkList {b : List Stmt} {y : Stmt} (hy : y ∈ Stmt.walkList b)
    (acts : hasEffect [y] = true) : hasEffect b = true := by
  induction b with
  | nil => simp at hy
  | cons s rest ih =>
    rw [hasEffect_cons, Bool.or_eq_true]
    rw [Stmt.walkList_cons, List.cons_append, List.mem_cons, List.mem_append] at hy
    rcases hy with rfl | nested | later
    · exact .inl acts
    · exact .inl (hasEffect_of_walkBlocks_ne_nil (List.ne_nil_of_mem nested))
    · exact .inr (ih later)

/-! ### What a statement splits into -/

namespace CoreView

variable (v : CoreView)

@[simp] theorem splitStmt_mk (i : Nat) (r : TextRange) (d : Option SampleRange) (k : StmtKind) :
    v.splitStmt (.mk i r d k) = (v.splitKind (.mk i r d k) k).map (.mk i r d) := rfl

theorem splitBlock_cons (s : Stmt) (rest : List Stmt) :
    v.splitBlock (s :: rest) = (v.splitStmt s).toList ++ v.splitBlock rest := by
  simp only [splitBlock]
  cases v.splitStmt s <;> rfl

/-- A statement's kind splits into one of the same keyword and barrier times, with its blocks
split. -/
theorem splitKind_shape {i : Nat} {r : TextRange} {d : Option SampleRange} {k k' : StmtKind}
    (h : v.splitKind (.mk i r d k) k = some k') :
    k'.keyword = k.keyword ∧ k'.syncTimes = k.syncTimes ∧
      k'.blocks = k.blocks.map v.splitBlock := by
  cases k
  case expr e =>
    cases e <;> simp only [splitKind] at h <;> (repeat' split at h) <;>
      (cases h <;> exact ⟨rfl, rfl, rfl⟩)
  case branch c t e =>
    cases e <;> simp only [splitKind] at h <;> (repeat' split at h) <;>
      (cases h <;> exact ⟨rfl, rfl, rfl⟩)
  all_goals
    simp only [splitKind] at h
    repeat' split at h
    all_goals (cases h <;> exact ⟨rfl, rfl, rfl⟩)

theorem walkList_singleton (t : Stmt) : Stmt.walkList [t] = t.walk := List.append_nil _

/-- The statements of a block of copies, at any depth, were split from the statements of the
blocks they were split from. -/
theorem blocks_copies {bs : List (List Stmt)}
    (h : ∀ b ∈ bs, List.SublistForall₂ (fun y x => v.splitStmt x = some y)
      (Stmt.walkList (v.splitBlock b)) (Stmt.walkList b)) :
    List.SublistForall₂ (fun y x => v.splitStmt x = some y)
      ((bs.map v.splitBlock).flatMap Stmt.walkList) (bs.flatMap Stmt.walkList) := by
  induction bs with
  | nil => exact .nil
  | cons b bs ih =>
    rw [List.map_cons, List.flatMap_cons, List.flatMap_cons]
    exact sublistForall₂_append (h b List.mem_cons_self)
      (ih fun b' hb' => h b' (List.mem_cons_of_mem _ hb'))

mutual

/-- The statements nested in the copy of a statement are, in pre-order, copies of statements
nested in it, in the same order. -/
theorem splitStmt_copies : (s : Stmt) → ∀ {t}, v.splitStmt s = some t →
    List.SublistForall₂ (fun y x => v.splitStmt x = some y) t.walk s.walk
  | .mk i r d k, t, h => by
    have kept := h
    rw [splitStmt_mk, Option.map_eq_some_iff] at kept
    obtain ⟨k', hk, rfl⟩ := kept
    rw [Stmt.walk_eq, Stmt.walk_eq]
    exact .cons h (splitKind_copies i r d k hk)

theorem splitKind_copies (i : Nat) (r : TextRange) (d : Option SampleRange) :
    (k : StmtKind) → ∀ {k'}, v.splitKind (.mk i r d k) k = some k' →
      List.SublistForall₂ (fun y x => v.splitStmt x = some y) k'.walkBlocks k.walkBlocks
  | .subroutine n ps ret body, k', h | .defcal n ps _ ret body, k', h | .cal body, k', h
  | .forLoop n _ ret body, k', h | .whileLoop ret body, k', h => by
    have inside := splitBlock_copies body
    rw [StmtKind.walkBlocks_eq_flatMap, StmtKind.walkBlocks_eq_flatMap, (v.splitKind_shape h).2.2]
    exact blocks_copies v fun b hb => List.mem_singleton.1 hb ▸ inside
  | .branch c t (some e), k', h => by
    have thenCopies := splitBlock_copies t
    have elseCopies := splitBlock_copies e
    rw [StmtKind.walkBlocks_eq_flatMap, StmtKind.walkBlocks_eq_flatMap, (v.splitKind_shape h).2.2]
    refine blocks_copies v fun b hb => ?_
    rcases List.mem_pair.1 hb with rfl | rfl
    · exact thenCopies
    · exact elseCopies
  | .branch c t none, k', h => by
    have inside := splitBlock_copies t
    rw [StmtKind.walkBlocks_eq_flatMap, StmtKind.walkBlocks_eq_flatMap, (v.splitKind_shape h).2.2]
    exact blocks_copies v fun b hb => List.mem_singleton.1 hb ▸ inside
  | .grammar _, k', h | .port _, k', h | .frame .., k', h | .waveform .., k', h
  | .declare .., k', h | .input .., k', h | .output .., k', h | .gate .., k', h
  | .expr _, k', h | .assign .., k', h | .ret _, k', h | .delay .., k', h | .play .., k', h
  | .capture .., k', h | .barrier .., k', h | .update .., k', h => by
    rw [StmtKind.walkBlocks_eq_flatMap, (v.splitKind_shape h).2.2]
    exact .nil

/-- The statements of a block's copy are, in pre-order, copies of statements of the block, in the
same order. -/
theorem splitBlock_copies : (b : List Stmt) →
    List.SublistForall₂ (fun y x => v.splitStmt x = some y)
      (Stmt.walkList (v.splitBlock b)) (Stmt.walkList b)
  | [] => .nil
  | s :: rest => by
    have walk : Stmt.walkList (s :: rest) = s.walk ++ Stmt.walkList rest := rfl
    rw [splitBlock_cons, Stmt.walkList_append, walk]
    have later := splitBlock_copies rest
    cases h : v.splitStmt s with
    | none => exact sublistForall₂_skip later _
    | some t =>
      rw [Option.toList_some, walkList_singleton]
      exact sublistForall₂_append (splitStmt_copies s h) later

end

mutual

/-- A statement that does something on the core, nested at any depth in a statement, keeps that
statement on the core, with its copy nested in the statement's copy. -/
theorem mem_splitStmt : (s : Stmt) → ∀ {x y}, x ∈ s.walk → v.splitStmt x = some y →
    hasEffect [y] = true → ∃ t, v.splitStmt s = some t ∧ y ∈ t.walk
  | .mk i r d k, x, y, hx, hy, acts => by
    rw [Stmt.walk_eq, List.mem_cons] at hx
    rcases hx with rfl | nested
    · exact ⟨y, hy, by rw [Stmt.walk_eq]; exact List.mem_cons_self⟩
    · obtain ⟨k', hk, inside⟩ := mem_splitKind i r d k nested hy acts
      refine ⟨.mk i r d k', by rw [splitStmt_mk, hk]; rfl, ?_⟩
      rw [Stmt.walk_eq]
      exact List.mem_cons_of_mem _ inside

/-- A kind whose blocks hold, at any depth, a statement that does something on the core is kept,
with that statement's copy in its split blocks. -/
theorem mem_splitKind (i : Nat) (r : TextRange) (d : Option SampleRange) :
    (k : StmtKind) → ∀ {x y}, x ∈ k.walkBlocks → v.splitStmt x = some y →
      hasEffect [y] = true → ∃ k', v.splitKind (.mk i r d k) k = some k' ∧ y ∈ k'.walkBlocks
  | .subroutine n ps ret body, x, y, hx, hy, acts =>
    ⟨_, rfl, mem_splitBlock body hx hy acts⟩
  | .defcal n ps qs ret body, x, y, hx, hy, acts => by
    have inside := mem_splitBlock body hx hy acts
    have stays := hasEffect_of_mem_walkList inside acts
    exact ⟨.defcal n ps qs ret (v.splitBlock body), by simp only [splitKind, stays, if_true],
      inside⟩
  | .cal body, x, y, hx, hy, acts => by
    have inside := mem_splitBlock body hx hy acts
    have stays : (v.splitBlock body).isEmpty = false := by
      rw [List.isEmpty_eq_false_iff]
      rintro empty
      rw [empty] at inside
      exact List.not_mem_nil inside
    exact ⟨.cal (v.splitBlock body), by simp only [splitKind, stays, Bool.false_eq_true, if_false],
      inside⟩
  | .forLoop var ty it body, x, y, hx, hy, acts => by
    have inside := mem_splitBlock body hx hy acts
    have stays := hasEffect_of_mem_walkList inside acts
    exact ⟨.forLoop var ty it (v.splitBlock body), by simp only [splitKind, stays, if_true],
      inside⟩
  | .whileLoop c body, x, y, hx, hy, acts => by
    have inside := mem_splitBlock body hx hy acts
    have stays := hasEffect_of_mem_walkList inside acts
    exact ⟨.whileLoop c (v.splitBlock body), by simp only [splitKind, stays, if_true], inside⟩
  | .branch c t (some e), x, y, hx, hy, acts => by
    have walk : (StmtKind.branch c t (some e)).walkBlocks =
        Stmt.walkList t ++ Stmt.walkList e := rfl
    rw [walk, List.mem_append] at hx
    rcases hx with inThen | inElse
    · have inside := mem_splitBlock t inThen hy acts
      have stays := hasEffect_of_mem_walkList inside acts
      exact ⟨.branch c (v.splitBlock t) (some (v.splitBlock e)),
        by simp only [splitKind, stays, Bool.true_or, if_true], List.mem_append_left _ inside⟩
    · have inside := mem_splitBlock e inElse hy acts
      have stays := hasEffect_of_mem_walkList inside acts
      exact ⟨.branch c (v.splitBlock t) (some (v.splitBlock e)), by simp only [splitKind, stays,
        Option.map_some, Option.getD_some, Bool.or_true, if_true], List.mem_append_right _ inside⟩
  | .branch c t none, x, y, hx, hy, acts => by
    have walk : (StmtKind.branch c t none).walkBlocks = Stmt.walkList t := List.append_nil _
    rw [walk] at hx
    have inside := mem_splitBlock t hx hy acts
    have stays := hasEffect_of_mem_walkList inside acts
    exact ⟨.branch c (v.splitBlock t) none, by simp only [splitKind, stays, Bool.true_or, if_true],
      List.mem_append_left _ inside⟩
  | .grammar _, _, _, hx, _, _ | .port _, _, _, hx, _, _ | .frame .., _, _, hx, _, _
  | .waveform .., _, _, hx, _, _ | .declare .., _, _, hx, _, _ | .input .., _, _, hx, _, _
  | .output .., _, _, hx, _, _ | .gate .., _, _, hx, _, _ | .expr _, _, _, hx, _, _
  | .assign .., _, _, hx, _, _ | .ret _, _, _, hx, _, _ | .delay .., _, _, hx, _, _
  | .play .., _, _, hx, _, _ | .capture .., _, _, hx, _, _ | .barrier .., _, _, hx, _, _
  | .update .., _, _, hx, _, _ => by
    cases hx

/-- A statement that does something on the core, nested at any depth in a block, has its copy
in the block's copy. -/
theorem mem_splitBlock : (b : List Stmt) → ∀ {x y}, x ∈ Stmt.walkList b →
    v.splitStmt x = some y → hasEffect [y] = true → y ∈ Stmt.walkList (v.splitBlock b)
  | [], _, _, hx, _, _ => by cases hx
  | s :: rest, x, y, hx, hy, acts => by
    have walk : Stmt.walkList (s :: rest) = s.walk ++ Stmt.walkList rest := rfl
    rw [walk, List.mem_append] at hx
    rw [splitBlock_cons, Stmt.walkList_append]
    rcases hx with here | later
    · obtain ⟨t, ht, inside⟩ := mem_splitStmt s here hy acts
      rw [ht, Option.toList_some, walkList_singleton]
      exact List.mem_append_left _ inside
    · exact List.mem_append_right _ (mem_splitBlock rest later hy acts)

end

end CoreView

/-! ### Where ports and frames are -/

/-- A map built by inserting entries with distinct keys holds exactly those entries. -/
theorem getElem?_foldl_insert {l : List (SymbolId × Core)} (distinct : (l.map Prod.fst).Nodup)
    {k : SymbolId} {c : Core} :
    (l.foldl (fun m e => m.insert e.1 e.2) (∅ : Std.HashMap SymbolId Core))[k]? = some c ↔
      (k, c) ∈ l := by
  rw [← Std.HashMap.ofList_equiv_foldl.getElem?_eq]
  have pairwise : l.Pairwise fun a b => (a.1 == b.1) = false :=
    (List.pairwise_map.1 distinct).imp fun different => by simpa using different
  constructor
  · intro found
    by_cases mem : k ∈ l.map Prod.fst
    · obtain ⟨⟨k', c'⟩, entry, same⟩ := List.mem_map.1 mem
      subst same
      rw [Std.HashMap.getElem?_ofList_of_mem (beq_self_eq_true _) pairwise entry] at found
      cases found
      exact entry
    · rw [Std.HashMap.getElem?_ofList_of_contains_eq_false (by simpa using mem)] at found
      cases found
  · intro entry
    exact Std.HashMap.getElem?_ofList_of_mem (beq_self_eq_true _) pairwise entry

namespace CoreAffinity

/-- One step of placing the declared ports on cores. -/
def placePort (setup : SetupConfig) (acc : Std.HashMap SymbolId Core) (s : Stmt) :
    Except SemanticError (Std.HashMap SymbolId Core) :=
  match s.kind with
  | .port name =>
    match setup.core? name.name with
    | none => .error ⟨.missingCore name.name, s.range⟩
    | some c =>
      match name.symbol with
      | some sym => .ok (acc.insert sym c)
      | none => .ok acc
  | _ => .ok acc

/-- One step of placing the declared frames on their ports' cores. -/
def placeFrame (ports acc : Std.HashMap SymbolId Core) (s : Stmt) : Std.HashMap SymbolId Core :=
  match s.kind with
  | .frame name port _ _ =>
    match name.symbol, port.symbol.bind ports.get? with
    | some f, some c => acc.insert f c
    | _, _ => acc
  | _ => acc

theorem ofProgram_eq (setup : SetupConfig) (p : Program) :
    ofProgram setup p = (do
      let ports ← (Stmt.walkList p).foldlM (placePort setup) {}
      pure ⟨ports, (Stmt.walkList p).foldl (placeFrame ports) {}⟩) := rfl

/-- What a port declaration puts in the map of ports: its symbol and the core the setup gives
it. -/
def portEntry (setup : SetupConfig) (s : Stmt) : Option (SymbolId × Core) :=
  match s.kind with
  | .port name => name.symbol.bind fun sym => (setup.core? name.name).map (sym, ·)
  | _ => none

/-- What a frame declaration puts in the map of frames: its symbol and its port's core. -/
def frameEntry (ports : Std.HashMap SymbolId Core) (s : Stmt) : Option (SymbolId × Core) :=
  match s.kind with
  | .frame name port _ _ => name.symbol.bind fun f => (port.symbol.bind ports.get?).map (f, ·)
  | _ => none

/-- Placing the ports succeeds only when the setup gives every declared port a core, and then
inserts the ports' entries in order. -/
theorem foldlM_placePort {setup : SetupConfig} :
    ∀ {l : List Stmt} {acc r : Std.HashMap SymbolId Core}, l.foldlM (placePort setup) acc = .ok r →
      (∀ s ∈ l, ∀ name, s.kind = .port name → (setup.core? name.name).isSome) ∧
        r = (l.filterMap (portEntry setup)).foldl (fun m e => m.insert e.1 e.2) acc
  | [], acc, r, h => by
    cases h
    exact ⟨by simp, rfl⟩
  | s :: rest, acc, r, h => by
    rw [List.foldlM_cons] at h
    obtain ⟨acc', step, h⟩ := except_bind_eq_ok.1 h
    obtain ⟨placed, rfl⟩ := foldlM_placePort h
    obtain ⟨i, range, d, k⟩ := s
    cases k
    case port name =>
      simp only [placePort, Stmt.kind, Stmt.range] at step
      cases core : setup.core? name.name with
      | none =>
        rw [core] at step
        cases step
      | some c =>
        rw [core] at step
        refine ⟨?_, ?_⟩
        · intro s hs n hn
          rcases List.mem_cons.1 hs with rfl | hs
          · cases hn
            simp [core]
          · exact placed s hs n hn
        · cases sym : name.symbol with
          | none =>
            rw [sym] at step
            cases step
            simp [portEntry, Stmt.kind, sym]
          | some sym' =>
            rw [sym] at step
            cases step
            simp [portEntry, Stmt.kind, sym, core]
    all_goals
      cases step
      constructor
      · intro s hs n hn
        rcases List.mem_cons.1 hs with rfl | hs
        · cases hn
        · exact placed s hs n hn
      · rw [List.filterMap_cons_none rfl]

/-- Placing the frames inserts the frames' entries in order. -/
theorem foldl_placeFrame (ports : Std.HashMap SymbolId Core) :
    ∀ (l : List Stmt) (acc : Std.HashMap SymbolId Core),
      l.foldl (placeFrame ports) acc =
        (l.filterMap (frameEntry ports)).foldl (fun m e => m.insert e.1 e.2) acc
  | [], _ => rfl
  | s :: rest, acc => by
    rw [List.foldl_cons, foldl_placeFrame ports rest]
    obtain ⟨i, range, d, k⟩ := s
    cases k
    case frame name port f ph =>
      cases hn : name.symbol <;> cases hp : port.symbol.bind ports.get? <;>
        simp only [placeFrame, frameEntry, Stmt.kind, hn, hp, Option.bind_none, Option.bind_some,
          Option.map_none, Option.map_some, List.filterMap_cons, List.foldl_cons]
    all_goals rfl

theorem portEntry_eq_some {setup : SetupConfig} {s : Stmt} {sym : SymbolId} {c : Core} :
    portEntry setup s = some (sym, c) ↔
      ∃ name, s.kind = .port name ∧ name.symbol = some sym ∧ setup.core? name.name = some c := by
  obtain ⟨i, range, d, k⟩ := s
  cases k
  case port name =>
    simp only [portEntry, Stmt.kind]
    cases hn : name.symbol <;> cases hc : setup.core? name.name <;> simp [hn, hc]
  all_goals simp [portEntry, Stmt.kind]

theorem frameEntry_eq_some {ports : Std.HashMap SymbolId Core} {s : Stmt} {sym : SymbolId}
    {c : Core} :
    frameEntry ports s = some (sym, c) ↔ ∃ name port f ph, s.kind = .frame name port f ph ∧
      name.symbol = some sym ∧ port.symbol.bind ports.get? = some c := by
  obtain ⟨i, range, d, k⟩ := s
  cases k
  case frame name port f ph =>
    simp only [frameEntry, Stmt.kind, StmtKind.frame.injEq, existsAndEq, true_and]
    cases name.symbol <;> cases port.symbol.bind ports.get? <;> simp
  all_goals simp [frameEntry, Stmt.kind]

/-- The symbols of the entries of declarations, one symbol each, are among the declared
symbols. -/
theorem keys_sublist_declarations {p : Program} {entry : Stmt → Option (SymbolId × Core)}
    (declares : ∀ s e, entry s = some e → s.kind.binds = [e.1]) :
    (((Stmt.walkList p).filterMap entry).map Prod.fst).Sublist p.declarations := by
  rw [List.map_filterMap, List.filterMap_eq_flatMap_toList]
  refine List.Sublist.flatMap_right _ fun s _ => ?_
  cases h : entry s with
  | none => exact List.nil_sublist _
  | some e =>
    rw [declares s e h]
    exact List.Sublist.refl _

theorem portEntry_declares (setup : SetupConfig) (s : Stmt) (e : SymbolId × Core)
    (h : portEntry setup s = some e) : s.kind.binds = [e.1] := by
  obtain ⟨name, kind, hsym, -⟩ := portEntry_eq_some.1 h
  simp [kind, StmtKind.binds, StmtKind.declared, hsym]

theorem frameEntry_declares (ports : Std.HashMap SymbolId Core) (s : Stmt) (e : SymbolId × Core)
    (h : frameEntry ports s = some e) : s.kind.binds = [e.1] := by
  obtain ⟨name, port, f, ph, kind, hsym, -⟩ := frameEntry_eq_some.1 h
  simp [kind, StmtKind.binds, StmtKind.declared, hsym]

variable {setup : SetupConfig} {p : Program} {a : CoreAffinity}

/-- Where the affinity of a program puts its ports: on the setup's core of the one port declared
with each symbol. Every declared port has a core. -/
theorem ofProgram_ports (h : ofProgram setup p = .ok a) (distinct : p.declarations.Nodup) :
    (∀ s ∈ Stmt.walkList p, ∀ name, s.kind = .port name → (setup.core? name.name).isSome) ∧
      ∀ sym c, a.ports[sym]? = some c ↔ ∃ s ∈ Stmt.walkList p, ∃ name, s.kind = .port name ∧
        name.symbol = some sym ∧ setup.core? name.name = some c := by
  rw [ofProgram_eq] at h
  obtain ⟨ports, placing, built⟩ := except_bind_eq_ok.1 h
  cases built
  obtain ⟨placed, rfl⟩ := foldlM_placePort placing
  refine ⟨placed, fun sym c => ?_⟩
  rw [getElem?_foldl_insert ((keys_sublist_declarations (portEntry_declares setup)).nodup
    distinct), List.mem_filterMap]
  constructor
  · rintro ⟨s, hs, entry⟩
    exact ⟨s, hs, portEntry_eq_some.1 entry⟩
  · rintro ⟨s, hs, declared⟩
    exact ⟨s, hs, portEntry_eq_some.2 declared⟩

/-- Where the affinity of a program puts its frames: on the core of the port that the one frame
declared with each symbol names. -/
theorem ofProgram_frames (h : ofProgram setup p = .ok a) (distinct : p.declarations.Nodup)
    (sym : SymbolId) (c : Core) :
    a.frames[sym]? = some c ↔ ∃ s ∈ Stmt.walkList p, ∃ name port f ph,
      s.kind = .frame name port f ph ∧ name.symbol = some sym ∧
        port.symbol.bind a.ports.get? = some c := by
  rw [ofProgram_eq] at h
  obtain ⟨ports, -, built⟩ := except_bind_eq_ok.1 h
  cases built
  show ((Stmt.walkList p).foldl (placeFrame ports) {})[sym]? = some c ↔ _
  rw [foldl_placeFrame, getElem?_foldl_insert ((keys_sublist_declarations
    (frameEntry_declares ports)).nodup distinct), List.mem_filterMap]
  constructor
  · rintro ⟨s, hs, entry⟩
    exact ⟨s, hs, frameEntry_eq_some.1 entry⟩
  · rintro ⟨s, hs, declared⟩
    exact ⟨s, hs, frameEntry_eq_some.2 declared⟩

end CoreAffinity

/-! ### The cores of ports and frames -/

/-- A search that at most one element answers finds that element's answer. -/
theorem findSome?_eq_some_of_unique {α β : Type} {l : List α} {g : α → Option β} {x : α}
    {b : β} (hx : x ∈ l) (found : g x = some b) (unique : ∀ y ∈ l, (g y).isSome → y = x) :
    l.findSome? g = some b := by
  induction l with
  | nil => cases hx
  | cons y l ih =>
    rw [List.findSome?_cons]
    cases hy : g y with
    | some b' =>
      obtain rfl := unique y List.mem_cons_self (by simp [hy])
      rw [found] at hy
      exact hy.symm
    | none =>
      rcases List.mem_cons.1 hx with rfl | hx
      · rw [found] at hy
        cases hy
      · exact ih hx fun z hz => unique z (List.mem_cons_of_mem _ hz)

namespace Program

variable (S : SetupConfig) (P : Program)

/-- The core the setup gives the port that the program declares with symbol `sym`. -/
def portCore? (sym : SymbolId) : Option Core :=
  (Stmt.walkList P).findSome? fun s =>
    match s.kind with
    | .port name => if name.symbol = some sym then S.core? name.name else none
    | _ => none

/-- The core of a frame the program declares on one of its ports: that port's core. Other
frames, such as parameters, have none. -/
def frameCore? (f : Ident) : Option Core :=
  f.symbol.bind fun sym => (Stmt.walkList P).findSome? fun s =>
    match s.kind with
    | .frame name port _ _ => if name.symbol = some sym then port.symbol.bind (portCore? S P)
      else none
    | _ => none

/-- Whether a frame belongs on core `c`: it is a frame of that core or of no core. -/
def onCore (c : Core) (f : Ident) : Bool := (frameCore? S P f).all (· == c)

variable {S P}

theorem portCore?_eq_some (distinct : P.declarations.Nodup) {sym : SymbolId} {c : Core} :
    P.portCore? S sym = some c ↔ ∃ s ∈ Stmt.walkList P, ∃ name, s.kind = .port name ∧
      name.symbol = some sym ∧ S.core? name.name = some c := by
  constructor
  · intro found
    obtain ⟨s, hs, answer⟩ := List.exists_of_findSome?_eq_some found
    obtain ⟨i, r, d, k⟩ := s
    cases k <;> simp only [Stmt.kind, reduceCtorEq] at answer
    case port name =>
      split at answer
      · exact ⟨_, hs, name, rfl, by assumption, answer⟩
      · cases answer
  · rintro ⟨s, hs, name, kind, hsym, core⟩
    refine findSome?_eq_some_of_unique hs (by simp [kind, hsym, core]) fun y hy answers => ?_
    obtain ⟨i, r, d, k⟩ := y
    cases k <;> simp only [Stmt.kind, Option.isSome_none, Bool.false_eq_true]
      at answers
    case port name' =>
      split at answers
      · rename_i hsym'
        refine Program.eq_of_mem_binds distinct hy hs (s := sym) ?_ ?_
        · simp [StmtKind.binds, StmtKind.declared, hsym']
        · simp [kind, StmtKind.binds, StmtKind.declared, hsym]
      · cases answers

theorem frameCore?_eq_some (distinct : P.declarations.Nodup) {f : Ident} {c : Core} :
    P.frameCore? S f = some c ↔ ∃ sym, f.symbol = some sym ∧ ∃ s ∈ Stmt.walkList P,
      ∃ name port fr ph, s.kind = .frame name port fr ph ∧ name.symbol = some sym ∧
        port.symbol.bind (P.portCore? S) = some c := by
  unfold frameCore?
  cases hf : f.symbol with
  | none => simp
  | some sym =>
    simp only [Option.bind_some, Option.some.injEq, exists_eq_left']
    constructor
    · intro found
      obtain ⟨s, hs, answer⟩ := List.exists_of_findSome?_eq_some found
      obtain ⟨i, r, d, k⟩ := s
      cases k <;> simp only [Stmt.kind, reduceCtorEq] at answer
      case frame name port fr ph =>
        split at answer
        · exact ⟨_, hs, name, port, fr, ph, rfl, by assumption, answer⟩
        · cases answer
    · rintro ⟨s, hs, name, port, fr, ph, kind, hsym, core⟩
      refine findSome?_eq_some_of_unique hs (by simp [kind, hsym, core]) fun y hy answers => ?_
      obtain ⟨i, r, d, k⟩ := y
      cases k <;> simp only [Stmt.kind, Option.isSome_none, Bool.false_eq_true]
        at answers
      case frame name' port' fr' ph' =>
        split at answers
        · rename_i hsym'
          refine Program.eq_of_mem_binds distinct hy hs (s := sym) ?_ ?_
          · simp [StmtKind.binds, StmtKind.declared, hsym']
          · simp [kind, StmtKind.binds, StmtKind.declared, hsym]
        · cases answers

end Program

namespace CoreAffinity

variable {setup : SetupConfig} {p : Program} {a : CoreAffinity}

/-- The affinity's core of a port symbol is the core of the port declared with it. -/
theorem ports_get? (h : ofProgram setup p = .ok a) (distinct : p.declarations.Nodup)
    (sym : SymbolId) : a.ports.get? sym = p.portCore? setup sym := by
  rw [Std.HashMap.get?_eq_getElem?]
  refine Option.ext fun c => ?_
  rw [(ofProgram_ports h distinct).2, Program.portCore?_eq_some distinct]

/-- The affinity's core of a frame is the core of the port it is declared on. -/
theorem frameCore?_eq (h : ofProgram setup p = .ok a) (distinct : p.declarations.Nodup)
    (f : Ident) : a.frameCore? f = p.frameCore? setup f := by
  refine Option.ext fun c => ?_
  have ports : a.ports.get? = p.portCore? setup := funext (ports_get? h distinct)
  rw [Program.frameCore?_eq_some distinct, frameCore?]
  cases hf : f.symbol with
  | none => simp
  | some sym =>
    rw [Option.bind_some, Std.HashMap.get?_eq_getElem?, ofProgram_frames h distinct, ports]
    simp

end CoreAffinity

/-- A frame is on the core of a view when the program declares it on a port of that core, or on
no core. -/
theorem CoreView.frameHere_eq {setup : SetupConfig} {p : Program} {a : CoreAffinity}
    (h : CoreAffinity.ofProgram setup p = .ok a) (distinct : p.declarations.Nodup) (c : Core) :
    CoreView.frameHere ⟨c, a⟩ = p.onCore setup c := by
  funext f
  rw [CoreView.frameHere, Program.onCore, ← CoreAffinity.frameCore?_eq h distinct]
  cases a.frameCore? f <;> rfl

namespace Core

theorem mem_insertOrdered {c d : Core} : ∀ {l : List Core},
    d ∈ insertOrdered c l ↔ d = c ∨ d ∈ l
  | [] => by simp [insertOrdered]
  | e :: rest => by
    simp only [insertOrdered]
    split
    · simp
    · split
      · rename_i same
        obtain rfl : c = e := by simpa using same
        simp
      · rw [List.mem_cons, mem_insertOrdered, List.mem_cons]
        tauto

theorem mem_ordered {cs : List Core} {d : Core} : d ∈ ordered cs ↔ d ∈ cs := by
  unfold ordered
  suffices h : ∀ acc : List Core,
      d ∈ cs.foldl (fun acc c => insertOrdered c acc) acc ↔ d ∈ cs ∨ d ∈ acc by
    simpa using h []
  induction cs with
  | nil => simp
  | cons c cs ih =>
    intro acc
    rw [List.foldl_cons, ih, mem_insertOrdered, List.mem_cons]
    tauto

end Core

/-! ### Splitting a program -/

/-- Whether the setup gives every port the program declares a core. -/
def SetupConfig.placesPorts (S : SetupConfig) (P : Program) : Bool :=
  (Stmt.walkList P).all fun s =>
    match s.kind with
    | .port name => (S.core? name.name).isSome
    | _ => true

theorem SetupConfig.placesPorts_iff {S : SetupConfig} {P : Program} :
    S.placesPorts P = true ↔
      ∀ s ∈ Stmt.walkList P, ∀ name, s.kind = .port name → (S.core? name.name).isSome := by
  simp only [placesPorts, List.all_eq_true]
  refine forall₂_congr fun s _ => ?_
  obtain ⟨i, r, d, k⟩ := s
  cases k <;> simp [Stmt.kind]

namespace CoreAffinity

/-- Placing the ports succeeds when the setup gives every declared port a core. -/
theorem foldlM_placePort_ok {setup : SetupConfig} :
    ∀ {l : List Stmt} (acc : Std.HashMap SymbolId Core),
      (∀ s ∈ l, ∀ name, s.kind = .port name → (setup.core? name.name).isSome) →
        ∃ r, l.foldlM (placePort setup) acc = .ok r
  | [], acc, _ => ⟨acc, rfl⟩
  | s :: rest, acc, placed => by
    have later : ∀ acc', ∃ r, rest.foldlM (placePort setup) acc' = .ok r := fun acc' =>
      foldlM_placePort_ok acc' fun s' hs' => placed s' (List.mem_cons_of_mem _ hs')
    rw [List.foldlM_cons]
    obtain ⟨acc', step⟩ : ∃ acc', placePort setup acc s = .ok acc' := by
      obtain ⟨i, range, d, k⟩ := s
      cases k
      case port name =>
        obtain ⟨c, core⟩ := Option.isSome_iff_exists.1 (placed _ List.mem_cons_self name rfl)
        simp only [placePort, Stmt.kind, core]
        cases name.symbol <;> exact ⟨_, rfl⟩
      all_goals exact ⟨acc, rfl⟩
    obtain ⟨r, hr⟩ := later acc'
    exact ⟨r, by rw [step]; exact hr⟩

end CoreAffinity

namespace Program

variable {S : SetupConfig} {P : Program} {m : List (Core × Program)}

theorem splitByCore_eq_ok : Program.splitByCore S P = .ok m ↔
    ∃ a, CoreAffinity.ofProgram S P = .ok a ∧
      m = a.cores.map fun c => (c, CoreView.splitBlock ⟨c, a⟩ P) := by
  unfold Program.splitByCore
  rw [except_bind_eq_ok]
  refine exists_congr fun a => and_congr_right fun _ => ?_
  exact ⟨fun h => (Except.ok.inj h).symm, fun h => h ▸ rfl⟩

/-- A program splits exactly when the setup gives each port it declares a core. -/
theorem splitByCore_ok_iff : (∃ m, Program.splitByCore S P = .ok m) ↔ S.placesPorts P = true := by
  rw [SetupConfig.placesPorts_iff]
  constructor
  · rintro ⟨m, split⟩
    obtain ⟨a, affinity, -⟩ := splitByCore_eq_ok.1 split
    rw [CoreAffinity.ofProgram_eq] at affinity
    obtain ⟨ports, placing, -⟩ := except_bind_eq_ok.1 affinity
    exact (CoreAffinity.foldlM_placePort placing).1
  · intro placed
    obtain ⟨ports, placing⟩ := CoreAffinity.foldlM_placePort_ok {} placed
    have affinity : CoreAffinity.ofProgram S P =
        .ok ⟨ports, (Stmt.walkList P).foldl (CoreAffinity.placeFrame ports) {}⟩ := by
      rw [CoreAffinity.ofProgram_eq, placing]
      rfl
    exact ⟨_, splitByCore_eq_ok.2 ⟨_, affinity, rfl⟩⟩

end Program

/-! ### The copies of one statement -/

/-- The frame a play, capture or frame update acts on. -/
def StmtKind.actsOn? : StmtKind → Option Ident
  | .play f _ | .capture f _ | .update _ f _ => some f
  | _ => none

theorem hasEffect_of_actsOn {x : Stmt} {f : Ident} (acts : x.kind.actsOn? = some f) :
    hasEffect [x] = true := by
  obtain ⟨i, r, d, k⟩ := x
  cases k <;> simp_all [StmtKind.actsOn?, hasEffect]

namespace CoreView

variable (v : CoreView) {x y : Stmt}

theorem splitStmt_id (h : v.splitStmt x = some y) : y.id = x.id := by
  obtain ⟨i, r, d, k⟩ := x
  rw [splitStmt_mk, Option.map_eq_some_iff] at h
  obtain ⟨k', -, rfl⟩ := h
  rfl

/-- A play, capture or frame update stays, unchanged, exactly where its frame is. -/
theorem splitStmt_of_actsOn {f : Ident} (acts : x.kind.actsOn? = some f) :
    v.splitStmt x = if v.frameHere f then some x else none := by
  obtain ⟨i, r, d, k⟩ := x
  cases k <;> simp only [StmtKind.actsOn?, Stmt.kind_mk, reduceCtorEq, Option.some.injEq] at acts
  all_goals
    subst acts
    simp only [splitStmt_mk, splitKind, Stmt.kind_mk]
    split <;> rfl

/-- A delay naming frames keeps those on the core, and goes when none of them is. -/
theorem splitStmt_delay {dur : Expr} {L : List Ident} (kind : x.kind = .delay dur L)
    (nonempty : L ≠ []) :
    v.splitStmt x = if L.filter v.frameHere = [] then none
      else some (x.withKind (.delay dur (L.filter v.frameHere))) := by
  obtain ⟨i, r, d, k⟩ := x
  obtain rfl : k = .delay dur L := kind
  simp only [splitStmt_mk, splitKind, List.isEmpty_iff, nonempty, if_false]
  split <;> rfl

/-- A barrier stays everywhere, its frames narrowed to those on the core. -/
theorem splitStmt_barrier {fs : Option (List Ident)} {ts : List Nat}
    (kind : x.kind = .barrier fs ts) :
    v.splitStmt x = some (x.withKind (.barrier (fs.map (·.filter v.frameHere)) ts)) := by
  obtain ⟨i, r, d, k⟩ := x
  obtain rfl : k = .barrier fs ts := kind
  rfl

/-- In a program whose statements have distinct numbers, the statements of a core's program
numbered like a statement of the program are its copies, when its copies do something. -/
theorem mem_splitBlock_iff {P : Program} (ids : ((Stmt.walkList P).map Stmt.id).Nodup)
    (hx : x ∈ Stmt.walkList P) (effect : ∀ y, v.splitStmt x = some y → hasEffect [y] = true)
    (y : Stmt) :
    (y ∈ Stmt.walkList (v.splitBlock P) ∧ y.id = x.id) ↔ v.splitStmt x = some y := by
  constructor
  · rintro ⟨hy, same⟩
    obtain ⟨x', hx', split⟩ := exists_of_mem_sublistForall₂ (v.splitBlock_copies P) hy
    obtain rfl : x' = x :=
      List.inj_on_of_nodup_map ids hx' hx ((v.splitStmt_id split).symm.trans same)
    exact split
  · intro split
    exact ⟨v.mem_splitBlock P hx split (effect y split), v.splitStmt_id split⟩

end CoreView

/-! ### Faithful splitting -/

/-- A statement kept in a core's program keeps its number, source range, duration, keyword and
barrier times. -/
def Stmt.Copies (t s : Stmt) : Prop :=
  t.id = s.id ∧ t.range = s.range ∧ t.duration = s.duration ∧ t.kind.keyword = s.kind.keyword ∧
    t.kind.syncTimes = s.kind.syncTimes

theorem CoreView.copies_of_splitStmt (v : CoreView) {x y : Stmt} (h : v.splitStmt x = some y) :
    Stmt.Copies y x := by
  obtain ⟨i, r, d, k⟩ := x
  rw [CoreView.splitStmt_mk, Option.map_eq_some_iff] at h
  obtain ⟨k', hk, rfl⟩ := h
  obtain ⟨keyword, times, -⟩ := v.splitKind_shape hk
  exact ⟨rfl, rfl, rfl, keyword, times⟩

namespace Program

/-- What splitting a program `P` into the programs `m` of its cores keeps. The cores are those of
`P`'s ports. Each core's program is, in pre-order, a subsequence of copies of `P`'s statements.
Every play, capture and frame update lives on the core of its frame and on no other. A delay
naming frames goes to the cores of its frames, each copy naming its core's frames, so that each
frame with a core is named by exactly one copy. Every barrier stays on every core, narrowed to the
core's frames. Frames with no core count as on every core. -/
structure SplitsFaithfully (S : SetupConfig) (P : Program) (m : List (Core × Program)) :
    Prop where
  cores : ∀ c, c ∈ m.map Prod.fst ↔
    ∃ s ∈ Stmt.walkList P, ∃ name, s.kind = .port name ∧ S.core? name.name = some c
  copies : ∀ cp ∈ m, List.SublistForall₂ Stmt.Copies (Stmt.walkList cp.2) (Stmt.walkList P)
  ids : ∀ cp ∈ m, ((Stmt.walkList cp.2).map Stmt.id).Sublist ((Stmt.walkList P).map Stmt.id)
  actions : ∀ x ∈ Stmt.walkList P, ∀ f c, x.kind.actsOn? = some f → P.frameCore? S f = some c →
    (∃ Pc, (c, Pc) ∈ m ∧ x ∈ Stmt.walkList Pc) ∧
      ∀ cp ∈ m, ∀ y ∈ Stmt.walkList cp.2, y.id = x.id → cp.1 = c ∧ y = x
  delays : ∀ x ∈ Stmt.walkList P, ∀ d L, x.kind = .delay d L → L ≠ [] → ∀ cp ∈ m, ∀ y,
    (y ∈ Stmt.walkList cp.2 ∧ y.id = x.id) ↔
      L.filter (P.onCore S cp.1) ≠ [] ∧ y = x.withKind (.delay d (L.filter (P.onCore S cp.1)))
  delayFrames : ∀ x ∈ Stmt.walkList P, ∀ d L, x.kind = .delay d L → ∀ f ∈ L, ∀ c,
    P.frameCore? S f = some c →
      (∃ Pc L', (c, Pc) ∈ m ∧ x.withKind (.delay d L') ∈ Stmt.walkList Pc ∧ f ∈ L') ∧
        ∀ cp ∈ m, ∀ L', x.withKind (.delay d L') ∈ Stmt.walkList cp.2 → f ∈ L' → cp.1 = c
  barriers : ∀ x ∈ Stmt.walkList P, ∀ fs ts, x.kind = .barrier fs ts → ∀ cp ∈ m, ∀ y,
    (y ∈ Stmt.walkList cp.2 ∧ y.id = x.id) ↔
      y = x.withKind (.barrier (fs.map (·.filter (P.onCore S cp.1))) ts)

variable {S : SetupConfig} {P : Program}

theorem onCore_iff {f : Ident} {c c' : Core} (found : P.frameCore? S f = some c) :
    P.onCore S c' f = true ↔ c = c' := by
  simp [onCore, found]

/-- A frame with a core is declared on a port the setup puts on that core. -/
theorem exists_port_of_frameCore? (distinct : P.declarations.Nodup) {f : Ident} {c : Core}
    (found : P.frameCore? S f = some c) :
    ∃ s ∈ Stmt.walkList P, ∃ name, s.kind = .port name ∧ S.core? name.name = some c := by
  obtain ⟨_, -, _, -, _, port, _, _, -, -, onPort⟩ := (frameCore?_eq_some distinct).1 found
  obtain ⟨sym, -, placed⟩ := Option.bind_eq_some_iff.1 onPort
  obtain ⟨s, hs, name, kind, -, core⟩ := (portCore?_eq_some distinct).1 placed
  exact ⟨s, hs, name, kind, core⟩

end Program

/-- The cores of an affinity are those of the program's ports. -/
theorem CoreAffinity.mem_cores {S : SetupConfig} {P : Program} {a : CoreAffinity}
    (h : CoreAffinity.ofProgram S P = .ok a) (distinct : P.declarations.Nodup)
    (named : ∀ s ∈ Stmt.walkList P, ∀ name, s.kind = .port name → ∃ sym, name.symbol = some sym)
    (c : Core) :
    c ∈ a.cores ↔
      ∃ s ∈ Stmt.walkList P, ∃ name, s.kind = .port name ∧ S.core? name.name = some c := by
  rw [CoreAffinity.cores, Core.mem_ordered, List.mem_map]
  constructor
  · rintro ⟨⟨sym, c'⟩, mem, rfl⟩
    rw [Std.HashMap.mem_toList_iff_getElem?_eq_some, (CoreAffinity.ofProgram_ports h distinct).2]
      at mem
    obtain ⟨s, hs, name, kind, -, core⟩ := mem
    exact ⟨s, hs, name, kind, core⟩
  · rintro ⟨s, hs, name, kind, core⟩
    obtain ⟨sym, symbol⟩ := named s hs name kind
    refine ⟨(sym, c), ?_, rfl⟩
    rw [Std.HashMap.mem_toList_iff_getElem?_eq_some, (CoreAffinity.ofProgram_ports h distinct).2]
    exact ⟨s, hs, name, kind, symbol, core⟩

namespace Program

variable {S : SetupConfig} {P : Program} {a : CoreAffinity} {x : Stmt}

/-- The statements of core `c`'s program numbered like a play, capture or frame update: the
statement itself, when its frame is on `c`. -/
theorem splitBlock_actsOn (affinity : CoreAffinity.ofProgram S P = .ok a)
    (ids : ((Stmt.walkList P).map Stmt.id).Nodup) (distinct : P.declarations.Nodup)
    (hx : x ∈ Stmt.walkList P) {f : Ident} (acts : x.kind.actsOn? = some f) (c : Core)
    (y : Stmt) :
    (y ∈ Stmt.walkList (CoreView.splitBlock ⟨c, a⟩ P) ∧ y.id = x.id) ↔
      P.onCore S c f = true ∧ y = x := by
  have stays := CoreView.splitStmt_of_actsOn ⟨c, a⟩ acts
  rw [CoreView.frameHere_eq affinity distinct] at stays
  have effect : ∀ y, CoreView.splitStmt ⟨c, a⟩ x = some y → hasEffect [y] = true := by
    intro y kept
    rw [stays] at kept
    split at kept <;> cases kept
    exact hasEffect_of_actsOn acts
  rw [CoreView.mem_splitBlock_iff _ ids hx effect, stays]
  cases P.onCore S c f
  · simp
  · simp only [↓reduceIte, Option.some.injEq, true_and]
    exact eq_comm

/-- The statements of core `c`'s program numbered like a delay naming frames: its copy naming the
frames of `c`, when it names any. -/
theorem splitBlock_delay (affinity : CoreAffinity.ofProgram S P = .ok a)
    (ids : ((Stmt.walkList P).map Stmt.id).Nodup) (distinct : P.declarations.Nodup)
    (hx : x ∈ Stmt.walkList P) {d : Expr} {L : List Ident} (kind : x.kind = .delay d L)
    (nonempty : L ≠ []) (c : Core) (y : Stmt) :
    (y ∈ Stmt.walkList (CoreView.splitBlock ⟨c, a⟩ P) ∧ y.id = x.id) ↔
      L.filter (P.onCore S c) ≠ [] ∧ y = x.withKind (.delay d (L.filter (P.onCore S c))) := by
  have stays := CoreView.splitStmt_delay ⟨c, a⟩ kind nonempty
  rw [CoreView.frameHere_eq affinity distinct] at stays
  have effect : ∀ y, CoreView.splitStmt ⟨c, a⟩ x = some y → hasEffect [y] = true := by
    intro y kept
    rw [stays] at kept
    split at kept <;> cases kept
    rfl
  rw [CoreView.mem_splitBlock_iff _ ids hx effect, stays]
  split
  case isTrue none_here => simp [none_here]
  case isFalse some_here =>
    rw [Option.some.injEq]
    exact ⟨fun copy => ⟨some_here, copy.symm⟩, fun copy => copy.2.symm⟩

/-- The statements of core `c`'s program numbered like a barrier: its copy narrowed to the frames
of `c`. -/
theorem splitBlock_barrier (affinity : CoreAffinity.ofProgram S P = .ok a)
    (ids : ((Stmt.walkList P).map Stmt.id).Nodup) (distinct : P.declarations.Nodup)
    (hx : x ∈ Stmt.walkList P) {fs : Option (List Ident)} {ts : List Nat}
    (kind : x.kind = .barrier fs ts) (c : Core) (y : Stmt) :
    (y ∈ Stmt.walkList (CoreView.splitBlock ⟨c, a⟩ P) ∧ y.id = x.id) ↔
      y = x.withKind (.barrier (fs.map (·.filter (P.onCore S c))) ts) := by
  have stays := CoreView.splitStmt_barrier ⟨c, a⟩ kind
  rw [CoreView.frameHere_eq affinity distinct] at stays
  have effect : ∀ y, CoreView.splitStmt ⟨c, a⟩ x = some y → hasEffect [y] = true := by
    intro y kept
    rw [stays, Option.some.injEq] at kept
    subst kept
    rfl
  rw [CoreView.mem_splitBlock_iff _ ids hx effect, stays, Option.some.injEq, eq_comm]

/-- Splitting a program whose statements have distinct numbers, whose declarations have distinct
symbols and whose ports have symbols is faithful. -/
theorem splitsFaithfully_of_distinct {m : List (Core × Program)}
    (split : splitByCore S P = .ok m) (ids : ((Stmt.walkList P).map Stmt.id).Nodup)
    (distinct : P.declarations.Nodup)
    (named : ∀ s ∈ Stmt.walkList P, ∀ name, s.kind = .port name → ∃ sym, name.symbol = some sym) :
    P.SplitsFaithfully S m := by
  obtain ⟨a, affinity, rfl⟩ := splitByCore_eq_ok.1 split
  have located : ∀ {f c}, P.frameCore? S f = some c →
      (c, CoreView.splitBlock ⟨c, a⟩ P) ∈ a.cores.map fun c => (c, CoreView.splitBlock ⟨c, a⟩ P) :=
    fun found => List.mem_map_of_mem ((CoreAffinity.mem_cores affinity distinct named _).2
      (exists_port_of_frameCore? distinct found))
  constructor
  case cores =>
    intro c
    rw [← CoreAffinity.mem_cores affinity distinct named, List.map_map]
    simp
  case copies =>
    intro cp hcp
    obtain ⟨c, -, rfl⟩ := List.mem_map.1 hcp
    exact sublistForall₂_imp (CoreView.splitBlock_copies _ P) fun _ _ kept =>
      CoreView.copies_of_splitStmt _ kept
  case ids =>
    intro cp hcp
    obtain ⟨c, -, rfl⟩ := List.mem_map.1 hcp
    exact map_sublist_of_sublistForall₂ (CoreView.splitBlock_copies _ P) fun _ _ kept =>
      CoreView.splitStmt_id _ kept
  case actions =>
    intro x hx f c acts found
    refine ⟨⟨_, located found, ?_⟩, fun cp hcp y hy same => ?_⟩
    · exact ((splitBlock_actsOn affinity ids distinct hx acts c x).2 ⟨(onCore_iff found).2 rfl,
        rfl⟩).1
    · obtain ⟨c', -, rfl⟩ := List.mem_map.1 hcp
      obtain ⟨here, rfl⟩ := (splitBlock_actsOn affinity ids distinct hx acts c' y).1 ⟨hy, same⟩
      exact ⟨((onCore_iff found).1 here).symm, rfl⟩
  case delays =>
    intro x hx d L kind nonempty cp hcp y
    obtain ⟨c, -, rfl⟩ := List.mem_map.1 hcp
    exact splitBlock_delay affinity ids distinct hx kind nonempty c y
  case delayFrames =>
    intro x hx d L kind f hf c found
    have nonempty : L ≠ [] := List.ne_nil_of_mem hf
    have named_here : f ∈ L.filter (P.onCore S c) :=
      List.mem_filter.2 ⟨hf, (onCore_iff found).2 rfl⟩
    refine ⟨⟨_, _, located found, ?_, named_here⟩, fun cp hcp L' hy hf' => ?_⟩
    · exact ((splitBlock_delay affinity ids distinct hx kind nonempty c _).2
        ⟨List.ne_nil_of_mem named_here, rfl⟩).1
    · obtain ⟨c', -, rfl⟩ := List.mem_map.1 hcp
      obtain ⟨-, copy⟩ :=
        (splitBlock_delay affinity ids distinct hx kind nonempty c' _).1 ⟨hy, rfl⟩
      have narrowed : L' = L.filter (P.onCore S c') := by
        simpa using congrArg Stmt.kind copy
      rw [narrowed, List.mem_filter] at hf'
      exact ((onCore_iff found).1 hf'.2).symm
  case barriers =>
    intro x hx fs ts kind cp hcp y
    obtain ⟨c, -, rfl⟩ := List.mem_map.1 hcp
    exact splitBlock_barrier affinity ids distinct hx kind c y

/-- Splitting an analyzed program across the cores of a setup loses and duplicates no timed
statement: every play, capture and frame update lands on the core of its frame alone, delays and
barriers are narrowed to each core's frames, and every kept statement keeps its number, range,
duration and barrier times. -/
theorem splitByCore_faithful {registry : Registry} {p : Program} {a : Analyzed}
    {S : SetupConfig} {m : List (Core × Program)} (analyzed : Program.analyze registry p = .ok a)
    (split : Program.splitByCore S a.program = .ok m) : a.program.SplitsFaithfully S m := by
  obtain ⟨distinct, named⟩ := analyze_declarations analyzed
  have ids : ((Stmt.walkList a.program).map Stmt.id).Nodup := by
    rw [analyze_ids analyzed]
    exact List.nodup_range
  refine splitsFaithfully_of_distinct split ids distinct fun s hs name kind => named s hs name ?_
  simp [kind, StmtKind.binders, StmtKind.declared]

/-- A `cal` block with a drive frame on an output core and a readout frame on an input core, a
phase shift on the drive frame and a barrier on both. -/
def twoCoreProgram : Program :=
  [.ofKind (.cal [
    .ofKind (.port ⟨"ch1", {}, none⟩),
    .ofKind (.port ⟨"ro", {}, none⟩),
    .ofKind (.frame ⟨"drive", {}, none⟩ ⟨"ch1", {}, none⟩ (.lit (.int 5)) (.lit (.int 0))),
    .ofKind (.frame ⟨"readout", {}, none⟩ ⟨"ro", {}, none⟩ (.lit (.int 7)) (.lit (.int 0))),
    .ofKind (.update .shiftPhase ⟨"drive", {}, none⟩ (.lit (.int 1))),
    .ofKind (.barrier (some [⟨"drive", {}, none⟩, ⟨"readout", {}, none⟩]) [])])]

/-- A setup putting `ch1` on an output core and `ro` on an input core. -/
def twoCoreSetup : SetupConfig :=
  { ports := [("ch1", ⟨"hdawg1", ⟨.output, 1, [1]⟩⟩), ("ro", ⟨"shfqa1", ⟨.input, 1, [1]⟩⟩)] }

theorem twoCoreProgram_splitsFaithfully : ∃ a m,
    Program.analyze Registry.empty twoCoreProgram = .ok a ∧
      Program.splitByCore twoCoreSetup a.program = .ok m ∧
        a.program.SplitsFaithfully twoCoreSetup m := by
  have placed : ((Program.analyze Registry.empty twoCoreProgram).toOption.map fun a =>
      twoCoreSetup.placesPorts a.program) = some true := by
    decide +kernel
  cases analyzed : Program.analyze Registry.empty twoCoreProgram with
  | error e =>
    rw [analyzed] at placed
    cases placed
  | ok a =>
    rw [analyzed] at placed
    obtain ⟨m, split⟩ := splitByCore_ok_iff.2 (Option.some.inj placed)
    exact ⟨a, m, rfl, split, splitByCore_faithful analyzed split⟩

end Program

end PulseCompiler
