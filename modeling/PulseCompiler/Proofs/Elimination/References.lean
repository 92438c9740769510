import PulseCompiler.Proofs.Analysis.Hiding
import PulseCompiler.Proofs.Split.Faithful
import PulseCompiler.Proofs.Elimination.FixedPoint
set_option autoImplicit false

/-!
# Elimination leaves no dangling reference

Splitting a program and a pass of elimination both thin it: each statement, at any depth, is
dropped or kept with its blocks thinned alike, referring to no more than before and declaring
the same name (`Thinning`). Thinning keeps locals (`Thinning.keepsLocals`).

A pass drops a declaration only when nothing in the program refers to it, or with the
definition, loop, branch or empty `cal` block around it. In a program that keeps its locals,
whatever is still referred to after the pass is then still declared, unless the statement
around it hid it and everything that referred to it went too (`Stmt.pruneList_keeps`).

Main statement: removing unused declarations from an analyzed program, or from a core's program
split from one, under any policy, keeps every declaration the result still refers to
(`Program.removeUnused_declares_referenced`).
-/

namespace PulseCompiler

/-! ### Thinning -/

/-- `f` thins statements: a statement it keeps has its blocks thinned by `f`, refers to no more
than the statement it came from, declares the same name and is a `cal` block if that was one. -/
structure Thinning (f : Stmt → Option Stmt) : Prop where
  blocks : ∀ {x y}, f x = some y → y.kind.blocks = x.kind.blocks.map (·.filterMap f)
  references : ∀ {x y}, f x = some y → y.kind.referencedSymbols ⊆ x.kind.referencedSymbols
  declared : ∀ {x y}, f x = some y → y.kind.declaredSymbol = x.kind.declaredSymbol
  cal : ∀ {x y}, f x = some y → y.kind.isCal = x.kind.isCal

theorem Stmt.walkList_filterMap_cons {f : Stmt → Option Stmt} (x : Stmt) (rest : List Stmt) :
    Stmt.walkList ((x :: rest).filterMap f) =
      Stmt.walkList (f x).toList ++ Stmt.walkList (rest.filterMap f) := by
  rw [List.filterMap_cons]
  cases f x with
  | none => rfl
  | some y => simp

theorem StmtKind.hidden_of_isCal_false {k : StmtKind} (h : k.isCal = false) :
    k.hidden = Stmt.declaredSymbols k.walkBlocks := by
  cases k
  case cal => cases h
  all_goals rfl

namespace Thinning

variable {f : Stmt → Option Stmt}

theorem walkBlocks_eq (t : Thinning f) {x y : Stmt} (h : f x = some y) :
    y.kind.walkBlocks = (x.kind.blocks.map (·.filterMap f)).flatMap Stmt.walkList := by
  rw [StmtKind.walkBlocks_eq_flatMap, t.blocks h]

mutual
/-- Every statement nested in a kept statement, itself included, comes from one nested in the
statement it was kept from. -/
theorem mem_walk (t : Thinning f) :
    (x : Stmt) → ∀ {y z}, f x = some y → z ∈ y.walk → ∃ w ∈ x.walk, f w = some z
  | .mk i r d k, y, z, h, hz => by
    rw [Stmt.walk_eq, List.mem_cons] at hz
    rcases hz with rfl | hz
    · exact ⟨_, by rw [Stmt.walk_eq]; exact List.mem_cons_self, h⟩
    · rw [t.walkBlocks_eq h, List.flatMap_map, List.mem_flatMap] at hz
      obtain ⟨b, hb, hz⟩ := hz
      obtain ⟨w, hw, kept⟩ := mem_walkBlocks t k hb hz
      exact ⟨w, by rw [Stmt.walk_eq]; exact List.mem_cons_of_mem _ hw, kept⟩

theorem mem_walkBlocks (t : Thinning f) : (k : StmtKind) → ∀ {b z}, b ∈ k.blocks →
    z ∈ Stmt.walkList (b.filterMap f) → ∃ w ∈ k.walkBlocks, f w = some z
  | .subroutine _ _ _ body, _, _, hb, hz | .defcal _ _ _ _ body, _, _, hb, hz
  | .cal body, _, _, hb, hz | .forLoop _ _ _ body, _, _, hb, hz
  | .whileLoop _ body, _, _, hb, hz => by
    rw [List.mem_singleton.1 hb] at hz
    exact mem_walkList t body hz
  | .branch c tb (some eb), _, _, hb, hz => by
    have walk :
        (StmtKind.branch c tb (some eb)).walkBlocks = Stmt.walkList tb ++ Stmt.walkList eb :=
      rfl
    rw [walk]
    rcases List.mem_pair.1 hb with same | same
    · rw [same] at hz
      obtain ⟨w, hw, kept⟩ := mem_walkList t tb hz
      exact ⟨w, List.mem_append_left _ hw, kept⟩
    · rw [same] at hz
      obtain ⟨w, hw, kept⟩ := mem_walkList t eb hz
      exact ⟨w, List.mem_append_right _ hw, kept⟩
  | .branch _ tb none, _, _, hb, hz => by
    rw [List.mem_singleton.1 hb] at hz
    obtain ⟨w, hw, kept⟩ := mem_walkList t tb hz
    exact ⟨w, by rw [StmtKind.walkBlocks, List.append_nil]; exact hw, kept⟩
  | .grammar _, _, _, hb, _ | .port _, _, _, hb, _ | .frame .., _, _, hb, _
  | .waveform .., _, _, hb, _ | .declare .., _, _, hb, _ | .input .., _, _, hb, _
  | .output .., _, _, hb, _ | .gate .., _, _, hb, _ | .expr _, _, _, hb, _
  | .assign .., _, _, hb, _ | .ret _, _, _, hb, _ | .delay .., _, _, hb, _
  | .play .., _, _, hb, _ | .capture .., _, _, hb, _ | .barrier .., _, _, hb, _
  | .update .., _, _, hb, _ => nomatch hb

/-- Every statement of a thinned block, at any depth, comes from one of the block. -/
theorem mem_walkList (t : Thinning f) :
    (b : List Stmt) → ∀ {z}, z ∈ Stmt.walkList (b.filterMap f) →
    ∃ w ∈ Stmt.walkList b, f w = some z
  | [], _, hz => nomatch hz
  | x :: rest, z, hz => by
    have walk : Stmt.walkList (x :: rest) = x.walk ++ Stmt.walkList rest := rfl
    rw [Stmt.walkList_filterMap_cons, List.mem_append] at hz
    rw [walk]
    rcases hz with hz | hz
    · cases hx : f x with
      | none => rw [hx] at hz; cases hz
      | some y =>
        rw [hx, Option.toList_some, Stmt.walkList_cons, Stmt.walkList_nil, List.append_nil,
          ← Stmt.walk_eq] at hz
        obtain ⟨w, hw, kept⟩ := mem_walk t x hx hz
        exact ⟨w, List.mem_append_left _ hw, kept⟩
    · obtain ⟨w, hw, kept⟩ := mem_walkList t rest hz
      exact ⟨w, List.mem_append_right _ hw, kept⟩
end

theorem declared_subset (t : Thinning f) (b : List Stmt) :
    Stmt.declaredSymbols (Stmt.walkList (b.filterMap f)) ⊆
      Stmt.declaredSymbols (Stmt.walkList b) := by
  intro sym hsym
  obtain ⟨z, hz, declared⟩ := Stmt.mem_declaredSymbols.1 hsym
  obtain ⟨w, hw, kept⟩ := t.mem_walkList b hz
  exact Stmt.mem_declaredSymbols.2 ⟨w, hw, t.declared kept ▸ declared⟩

theorem referenced_subset (t : Thinning f) (b : List Stmt) :
    Stmt.referencedSymbols (Stmt.walkList (b.filterMap f)) ⊆
      Stmt.referencedSymbols (Stmt.walkList b) := by
  intro sym hsym
  obtain ⟨z, hz, refers⟩ := Stmt.mem_referencedSymbols.1 hsym
  obtain ⟨w, hw, kept⟩ := t.mem_walkList b hz
  exact Stmt.mem_referencedSymbols.2 ⟨w, hw, t.references kept refers⟩

theorem walk_referenced_subset (t : Thinning f) {x y : Stmt} (h : f x = some y) :
    Stmt.referencedSymbols y.walk ⊆ Stmt.referencedSymbols x.walk := by
  intro sym hsym
  obtain ⟨z, hz, refers⟩ := Stmt.mem_referencedSymbols.1 hsym
  obtain ⟨w, hw, kept⟩ := t.mem_walk x h hz
  exact Stmt.mem_referencedSymbols.2 ⟨w, hw, t.references kept refers⟩

/-- A statement kept from a statement that is not a `cal` block hides no more than it. -/
theorem hidden_subset_of_isCal_false (t : Thinning f) {x y : Stmt} (h : f x = some y)
    (plain : x.kind.isCal = false) :
    y.hidden ⊆ x.hidden := by
  rw [Stmt.hidden_eq, Stmt.hidden_eq, StmtKind.hidden_of_isCal_false plain,
    StmtKind.hidden_of_isCal_false ((t.cal h).trans plain)]
  intro sym hsym
  obtain ⟨z, hz, declared⟩ := Stmt.mem_declaredSymbols.1 hsym
  rw [t.walkBlocks_eq h, List.flatMap_map, List.mem_flatMap] at hz
  obtain ⟨b, hb, hz⟩ := hz
  obtain ⟨w, hw, kept⟩ := t.mem_walkList b hz
  exact Stmt.mem_declaredSymbols.2
    ⟨w, Stmt.walkList_subset_walkBlocks hb hw, t.declared kept ▸ declared⟩

mutual
/-- A kept statement hides no more than the statement it was kept from. -/
theorem hidden_subset (t : Thinning f) :
    (x : Stmt) → ∀ {y}, f x = some y → y.hidden ⊆ x.hidden
  | .mk i r d (.cal body), y, h => by
    obtain ⟨j, r', d', k'⟩ := y
    have blocks := t.blocks h
    have cal := t.cal h
    cases k' <;> simp only [Stmt.kind, StmtKind.isCal, reduceCtorEq] at cal
    case cal body' =>
      simp only [Stmt.kind, StmtKind.blocks, List.map_cons, List.map_nil, List.cons.injEq,
        and_true] at blocks
      rw [Stmt.hidden_mk, Stmt.hidden_mk, StmtKind.hidden, StmtKind.hidden, blocks]
      exact hiddenList_subset t body
  | .mk _ _ _ (.grammar _), _, h | .mk _ _ _ (.port _), _, h | .mk _ _ _ (.frame ..), _, h
  | .mk _ _ _ (.waveform ..), _, h | .mk _ _ _ (.declare ..), _, h | .mk _ _ _ (.input ..), _, h
  | .mk _ _ _ (.output ..), _, h | .mk _ _ _ (.subroutine ..), _, h
  | .mk _ _ _ (.defcal ..), _, h | .mk _ _ _ (.gate ..), _, h | .mk _ _ _ (.expr _), _, h
  | .mk _ _ _ (.assign ..), _, h | .mk _ _ _ (.ret _), _, h | .mk _ _ _ (.forLoop ..), _, h
  | .mk _ _ _ (.whileLoop ..), _, h | .mk _ _ _ (.branch ..), _, h | .mk _ _ _ (.delay ..), _, h
  | .mk _ _ _ (.play ..), _, h | .mk _ _ _ (.capture ..), _, h | .mk _ _ _ (.barrier ..), _, h
  | .mk _ _ _ (.update ..), _, h => t.hidden_subset_of_isCal_false h rfl

theorem hiddenList_subset (t : Thinning f) :
    (b : List Stmt) → Stmt.hiddenList (b.filterMap f) ⊆ Stmt.hiddenList b
  | [] => List.Subset.refl _
  | x :: rest => by
    have later := hiddenList_subset t rest
    rw [List.filterMap_cons]
    cases hx : f x with
    | none => exact fun _ hs => List.mem_append_right _ (later hs)
    | some y =>
      have here := hidden_subset t x hx
      simp only [Stmt.hiddenList]
      exact List.append_subset.2 ⟨fun _ hs => List.mem_append_left _ (here hs),
        fun _ hs => List.mem_append_right _ (later hs)⟩
end

theorem apart (t : Thinning f) {x₁ x₂ y₁ y₂ : Stmt} (h : x₁.Apart x₂) (h₁ : f x₁ = some y₁)
    (h₂ : f x₂ = some y₂) :
    y₁.Apart y₂ :=
  ⟨List.disjoint_of_subset_right (t.walk_referenced_subset h₂)
      (List.disjoint_of_subset_left (t.hidden_subset x₁ h₁) h.1),
    List.disjoint_of_subset_right (t.walk_referenced_subset h₁)
      (List.disjoint_of_subset_left (t.hidden_subset x₂ h₂) h.2)⟩

theorem pairwise_apart (t : Thinning f) {b : List Stmt} (h : b.Pairwise Stmt.Apart) :
    (b.filterMap f).Pairwise Stmt.Apart :=
  h.filterMap f fun _ _ ap _ h₁ _ h₂ => t.apart ap h₁ h₂

/-- A statement kept from one that keeps to itself what it hides keeps to itself too. -/
theorem closed (t : Thinning f) {x y : Stmt} (h : f x = some y) (c : x.kind.Closed) :
    y.kind.Closed where
  header := by
    have hidden := t.hidden_subset x h
    rw [Stmt.hidden_eq, Stmt.hidden_eq] at hidden
    exact List.disjoint_of_subset_right (t.references h)
      (List.disjoint_of_subset_left hidden c.header)
  blocks := by
    rw [t.blocks h, List.pairwise_map]
    exact c.blocks.imp fun ⟨one, other⟩ =>
      ⟨List.disjoint_of_subset_right (t.referenced_subset _)
          (List.disjoint_of_subset_left (t.declared_subset _) one),
        List.disjoint_of_subset_right (t.referenced_subset _)
          (List.disjoint_of_subset_left (t.declared_subset _) other)⟩
  apart b hb := by
    rw [t.blocks h, List.mem_map] at hb
    obtain ⟨b', hb', rfl⟩ := hb
    exact t.pairwise_apart (c.apart b' hb')

theorem keepsLocals (t : Thinning f) {b : List Stmt} (h : Program.KeepsLocals b) :
    Program.KeepsLocals (b.filterMap f) where
  apart := t.pairwise_apart h.apart
  closed z hz := by
    obtain ⟨w, hw, kept⟩ := t.mem_walkList b hz
    exact t.closed kept (h.closed w hw)

end Thinning

/-! ### Splitting thins -/

namespace CoreView

variable (v : CoreView)

theorem splitBlock_eq_filterMap : (b : List Stmt) → v.splitBlock b = b.filterMap v.splitStmt
  | [] => rfl
  | s :: rest => by
    rw [v.splitBlock_cons, List.filterMap_cons, splitBlock_eq_filterMap rest]
    cases v.splitStmt s <;> rfl

/-- A statement's kind splits into one that refers to no more, declares the same name and is a
`cal` block if that was one: only the frames of delays and barriers are narrowed. -/
theorem splitKind_refers {i : Nat} {r : TextRange} {d : Option SampleRange} {k k' : StmtKind}
    (h : v.splitKind (.mk i r d k) k = some k') :
    k'.referencedSymbols ⊆ k.referencedSymbols ∧ k'.declaredSymbol = k.declaredSymbol ∧
      k'.isCal = k.isCal := by
  cases k
  case delay dur frames =>
    simp only [splitKind] at h
    split at h
    · cases h
      exact ⟨List.Subset.refl _, rfl, rfl⟩
    · split at h
      · cases h
      · cases h
        refine ⟨List.filterMap_subset _ ?_, rfl, rfl⟩
        exact List.append_subset.2 ⟨List.subset_append_left _ _,
          List.Subset.trans (List.filter_subset_self _) (List.subset_append_right _ _)⟩
  case barrier frames times =>
    simp only [splitKind] at h
    cases h
    refine ⟨List.filterMap_subset _ ?_, rfl, rfl⟩
    cases frames with
    | none => exact List.Subset.refl _
    | some fs => exact List.filter_subset_self _
  case expr e =>
    cases e <;> simp only [splitKind] at h <;> (repeat' split at h) <;>
      (cases h <;> exact ⟨List.Subset.refl _, rfl, rfl⟩)
  case branch c t e =>
    cases e <;> simp only [splitKind] at h <;> (repeat' split at h) <;>
      (cases h <;> exact ⟨List.Subset.refl _, rfl, rfl⟩)
  case forLoop var ty it body =>
    cases it <;> simp only [splitKind] at h <;> (repeat' split at h) <;>
      (cases h <;> exact ⟨List.Subset.refl _, rfl, rfl⟩)
  all_goals
    simp only [splitKind] at h
    repeat' split at h
    all_goals (cases h <;> exact ⟨List.Subset.refl _, rfl, rfl⟩)

theorem splitStmt_thinning : Thinning v.splitStmt where
  blocks {x y} h := by
    obtain ⟨i, r, d, k⟩ := x
    rw [splitStmt_mk, Option.map_eq_some_iff] at h
    obtain ⟨k', hk, rfl⟩ := h
    rw [Stmt.kind_mk, Stmt.kind_mk, (v.splitKind_shape hk).2.2]
    exact List.map_congr_left fun b _ => v.splitBlock_eq_filterMap b
  references {x y} h := by
    obtain ⟨i, r, d, k⟩ := x
    rw [splitStmt_mk, Option.map_eq_some_iff] at h
    obtain ⟨k', hk, rfl⟩ := h
    exact (v.splitKind_refers hk).1
  declared {x y} h := by
    obtain ⟨i, r, d, k⟩ := x
    rw [splitStmt_mk, Option.map_eq_some_iff] at h
    obtain ⟨k', hk, rfl⟩ := h
    exact (v.splitKind_refers hk).2.1
  cal {x y} h := by
    obtain ⟨i, r, d, k⟩ := x
    rw [splitStmt_mk, Option.map_eq_some_iff] at h
    obtain ⟨k', hk, rfl⟩ := h
    exact (v.splitKind_refers hk).2.2

end CoreView

/-! ### A pass thins -/

variable (u : Usage)

theorem Stmt.pruneList_eq_filterMap :
    (b : List Stmt) → (Stmt.pruneList u b).1 = b.filterMap fun s => (Stmt.prune u s).1
  | [] => rfl
  | s :: rest => by
    rw [Stmt.pruneList_cons, List.filterMap_cons, Stmt.pruneList_eq_filterMap rest]
    cases (Stmt.prune u s).1 <;> rfl

theorem StmtKind.prune_shape (k : StmtKind) :
    (StmtKind.prune u k).1.references = k.references ∧
      (StmtKind.prune u k).1.declared = k.declared ∧
      (StmtKind.prune u k).1.blocks = k.blocks.map (fun b => (Stmt.pruneList u b).1) ∧
      (StmtKind.prune u k).1.isCal = k.isCal := by
  cases k
  case branch c t e => cases e <;> exact ⟨rfl, rfl, rfl, rfl⟩
  case forLoop var ty it body => cases it <;> exact ⟨rfl, rfl, rfl, rfl⟩
  all_goals exact ⟨rfl, rfl, rfl, rfl⟩

/-- A statement a pass keeps is the statement with its blocks pruned, and was not removed. -/
theorem Stmt.prune_eq_some {x y : Stmt} (h : (Stmt.prune u x).1 = some y) :
    u.removal (StmtKind.prune u x.kind).1 = none ∧
      y = x.withKind (StmtKind.prune u x.kind).1 := by
  obtain ⟨i, r, d, k⟩ := x
  rw [Stmt.prune_mk] at h
  cases hr : u.removal (StmtKind.prune u k).1 with
  | some what => rw [hr] at h; cases h
  | none =>
    rw [hr] at h
    cases h
    exact ⟨hr, rfl⟩

theorem Stmt.prune_thinning : Thinning fun s => (Stmt.prune u s).1 where
  blocks {x y} h := by
    obtain ⟨-, rfl⟩ := Stmt.prune_eq_some u h
    rw [Stmt.kind_withKind, (StmtKind.prune_shape u x.kind).2.2.1]
    exact List.map_congr_left fun b _ => Stmt.pruneList_eq_filterMap u b
  references {x y} h := by
    obtain ⟨-, rfl⟩ := Stmt.prune_eq_some u h
    rw [Stmt.kind_withKind, StmtKind.referencedSymbols, (StmtKind.prune_shape u x.kind).1]
    exact List.Subset.refl _
  declared {x y} h := by
    obtain ⟨-, rfl⟩ := Stmt.prune_eq_some u h
    rw [Stmt.kind_withKind, StmtKind.declaredSymbol, (StmtKind.prune_shape u x.kind).2.1]
    rfl
  cal {x y} h := by
    obtain ⟨-, rfl⟩ := Stmt.prune_eq_some u h
    rw [Stmt.kind_withKind, (StmtKind.prune_shape u x.kind).2.2.2]

theorem Stmt.pruneList_referenced_subset (b : List Stmt) :
    Stmt.referencedSymbols (Stmt.walkList (Stmt.pruneList u b).1) ⊆
      Stmt.referencedSymbols (Stmt.walkList b) := by
  rw [Stmt.pruneList_eq_filterMap]
  exact (Stmt.prune_thinning u).referenced_subset b

theorem Stmt.prune_referenced_subset (s : Stmt) :
    Stmt.referencedSymbols (Stmt.walkList (Stmt.prune u s).1.toList) ⊆
      Stmt.referencedSymbols s.walk := by
  cases h : (Stmt.prune u s).1 with
  | none => exact List.nil_subset _
  | some y =>
    rw [Option.toList_some, Stmt.walkList, Stmt.walkList_nil, List.append_nil]
    exact (Stmt.prune_thinning u).walk_referenced_subset h

/-! ### What a pass removes -/

/-- A pass removes a declaration only when nothing refers to the symbol it declares. -/
theorem Usage.removal_declared {k : StmtKind} {what : String} {sym : SymbolId}
    (removed : u.removal k = some what) (declared : k.declaredSymbol = some sym) :
    sym ∉ u.referenced := by
  have unused : u.isReferenced k = false := by
    cases k <;> simp_all [Usage.removal, StmtKind.declaredSymbol, StmtKind.declared]
  have bound : (k.declared.bind fun i => i.symbol) = some sym := declared
  simp only [Usage.isReferenced, bound] at unused
  intro mem
  rw [List.contains_iff_mem.2 mem] at unused
  cases unused

/-- A pass removes a `cal` block only when nothing is left in it. -/
theorem Usage.removal_cal {b : List Stmt} {what : String}
    (removed : u.removal (.cal b) = some what) :
    b = [] := by
  cases b with
  | nil => rfl
  | cons s rest => simp [Usage.removal] at removed

theorem Stmt.mem_walkList_iff {z : Stmt} :
    {b : List Stmt} → z ∈ Stmt.walkList b ↔ ∃ t ∈ b, z ∈ t.walk
  | [] => by simp
  | s :: rest => by
    rw [Stmt.walkList, List.mem_append, Stmt.mem_walkList_iff]
    simp only [List.mem_cons, or_and_right, exists_or, exists_eq_left]

/-! ### One pass keeps what is still referred to -/

/-- A symbol survives in statements when they still declare it, or when it was among `hidden`
and nothing in them refers to it any more. -/
def Stmt.Survives (sym : SymbolId) (hidden : List SymbolId) (w : List Stmt) : Prop :=
  sym ∈ Stmt.declaredSymbols w ∨ (sym ∈ hidden ∧ sym ∉ Stmt.referencedSymbols w)

section OnePass

variable {sym : SymbolId}

/-- A statement that a pass removes hid whatever its blocks declared and no longer declare once
pruned: a `cal` block, which hides only what its statements hide, goes only when nothing is left
in it. -/
theorem StmtKind.mem_hidden_of_removal {k : StmtKind} {what : String}
    (removed : u.removal (StmtKind.prune u k).1 = some what)
    (inner : sym ∈ Stmt.declaredSymbols k.walkBlocks)
    (nested : Stmt.Survives sym k.hidden (StmtKind.prune u k).1.walkBlocks) : sym ∈ k.hidden := by
  cases cal : k.isCal
  · rw [StmtKind.hidden_of_isCal_false cal]
    exact inner
  · obtain ⟨body, rfl⟩ : ∃ body, k = .cal body := by
      cases k <;> first | exact ⟨_, rfl⟩ | cases cal
    have empty := Usage.removal_cal u removed
    rcases nested with kept | ⟨hidden, -⟩
    · change sym ∈ Stmt.declaredSymbols (Stmt.walkList (Stmt.pruneList u body).1) at kept
      rw [empty] at kept
      exact nomatch kept
    · exact hidden

mutual
/-- Through a pass that uses `sym`, a statement that keeps its locals keeps declaring `sym`, or
hid it and keeps nothing that refers to it. -/
theorem Stmt.prune_keeps (used : sym ∈ u.referenced) : (s : Stmt) → Program.KeepsLocals [s] →
    sym ∈ Stmt.declaredSymbols s.walk →
      Stmt.Survives sym s.hidden (Stmt.walkList (Stmt.prune u s).1.toList)
  | .mk i r d k, keeps, declared => by
    obtain ⟨closed, blocks⟩ := Program.keepsLocals_singleton.1 keeps
    have nested := StmtKind.prune_keeps used k closed blocks
    obtain ⟨refs, decl, -, -⟩ := StmtKind.prune_shape u k
    simp only [Stmt.walk_eq, Stmt.declaredSymbols_cons, List.mem_append, Option.mem_toList]
      at declared
    rw [Stmt.prune_mk]
    cases hr : u.removal (StmtKind.prune u k).1 with
    | some what =>
      refine Or.inr ⟨?_, fun h => nomatch h⟩
      rcases declared with own | inner
      · exact absurd used (Usage.removal_declared u hr (by rwa [StmtKind.declaredSymbol, decl]))
      · exact StmtKind.mem_hidden_of_removal u hr inner (nested inner)
    | none =>
      have sameDecl : (StmtKind.prune u k).1.declaredSymbol = k.declaredSymbol := by
        rw [StmtKind.declaredSymbol, decl, StmtKind.declaredSymbol]
      have sameRefs : (StmtKind.prune u k).1.referencedSymbols = k.referencedSymbols := by
        rw [StmtKind.referencedSymbols, refs, StmtKind.referencedSymbols]
      simp only [Option.toList_some, Stmt.Survives, Stmt.walkList_cons, Stmt.walkList_nil,
        List.append_nil, Stmt.declaredSymbols_cons, Stmt.referencedSymbols_cons, List.mem_append,
        Option.mem_toList, Stmt.hidden_mk]
      rcases declared with own | inner
      · exact Or.inl (Or.inl (sameDecl.trans own))
      · rcases nested inner with kept | ⟨hidden, gone⟩
        · exact Or.inl (Or.inr kept)
        · refine Or.inr ⟨hidden, fun h => h.elim (fun header => ?_) gone⟩
          change sym ∈ (StmtKind.prune u k).1.referencedSymbols at header
          exact closed.header hidden (sameRefs ▸ header)

/-- Through a pass that uses `sym`, the blocks of a statement kind that keeps its locals keep
declaring `sym`, or the kind hid it and its blocks keep nothing that refers to it. -/
theorem StmtKind.prune_keeps (used : sym ∈ u.referenced) : (k : StmtKind) → k.Closed →
    (∀ b ∈ k.blocks, Program.KeepsLocals b) → sym ∈ Stmt.declaredSymbols k.walkBlocks →
      Stmt.Survives sym k.hidden (StmtKind.prune u k).1.walkBlocks
  | .grammar _, _, _, declared | .port _, _, _, declared | .frame .., _, _, declared
  | .waveform .., _, _, declared | .declare .., _, _, declared | .input .., _, _, declared
  | .output .., _, _, declared | .gate .., _, _, declared | .expr _, _, _, declared
  | .assign .., _, _, declared | .ret _, _, _, declared | .delay .., _, _, declared
  | .play .., _, _, declared | .capture .., _, _, declared | .barrier .., _, _, declared
  | .update .., _, _, declared => nomatch declared
  | .subroutine _ _ _ body, _, blocks, declared | .defcal _ _ _ _ body, _, blocks, declared
  | .forLoop _ _ _ body, _, blocks, declared | .whileLoop _ body, _, blocks, declared => by
    rcases Stmt.pruneList_keeps used body (blocks body List.mem_cons_self) declared with
      kept | ⟨-, gone⟩
    · exact Or.inl kept
    · exact Or.inr ⟨declared, gone⟩
  | .cal body, _, blocks, declared =>
    Stmt.pruneList_keeps used body (blocks body List.mem_cons_self) declared
  | .branch c t none, _, blocks, declared => by
    have walk (b : List Stmt) : (StmtKind.branch c b none).walkBlocks = Stmt.walkList b :=
      List.append_nil _
    have declaredThen : sym ∈ Stmt.declaredSymbols (Stmt.walkList t) := walk t ▸ declared
    show Stmt.Survives sym _ (StmtKind.branch c (Stmt.pruneList u t).1 none).walkBlocks
    rw [walk]
    rcases Stmt.pruneList_keeps used t (blocks t List.mem_cons_self) declaredThen with
      kept | ⟨-, gone⟩
    · exact Or.inl kept
    · exact Or.inr ⟨declared, gone⟩
  | .branch c t (some e), closed, blocks, declared => by
    have keepsThen := blocks t List.mem_cons_self
    have keepsElse := blocks e (List.mem_cons_of_mem _ List.mem_cons_self)
    obtain ⟨thenElse, elseThen⟩ := List.pairwise_pair.1 closed.blocks
    have walk (b b' : List Stmt) :
        (StmtKind.branch c b (some b')).walkBlocks = Stmt.walkList b ++ Stmt.walkList b' := rfl
    have hidden : sym ∈ (StmtKind.branch c t (some e)).hidden := declared
    rw [walk, Stmt.declaredSymbols_append, List.mem_append] at declared
    show Stmt.Survives sym _
      (StmtKind.branch c (Stmt.pruneList u t).1 (some (Stmt.pruneList u e).1)).walkBlocks
    unfold Stmt.Survives
    rw [walk, Stmt.declaredSymbols_append, Stmt.referencedSymbols_append, List.mem_append,
      List.mem_append]
    rcases declared with inThen | inElse
    · rcases Stmt.pruneList_keeps used t keepsThen inThen with kept | ⟨-, gone⟩
      · exact Or.inl (Or.inl kept)
      · refine Or.inr ⟨hidden, fun h => h.elim gone fun refersElse => ?_⟩
        exact thenElse inThen (Stmt.pruneList_referenced_subset u e refersElse)
    · rcases Stmt.pruneList_keeps used e keepsElse inElse with kept | ⟨-, gone⟩
      · exact Or.inl (Or.inr kept)
      · refine Or.inr ⟨hidden, fun h => h.elim (fun refersThen => ?_) gone⟩
        exact elseThen inElse (Stmt.pruneList_referenced_subset u t refersThen)

/-- Through a pass that uses `sym`, a block that keeps its locals keeps declaring `sym`, or one
of its statements hid it and the block keeps nothing that refers to it. -/
theorem Stmt.pruneList_keeps (used : sym ∈ u.referenced) : (b : List Stmt) →
    Program.KeepsLocals b → sym ∈ Stmt.declaredSymbols (Stmt.walkList b) →
      Stmt.Survives sym (Stmt.hiddenList b) (Stmt.walkList (Stmt.pruneList u b).1)
  | [], _, declared => nomatch declared
  | s :: rest, keeps, declared => by
    obtain ⟨apart, keepsHere, keepsRest⟩ := Program.keepsLocals_cons.1 keeps
    have walk : Stmt.walkList (s :: rest) = s.walk ++ Stmt.walkList rest := rfl
    rw [walk, Stmt.declaredSymbols_append, List.mem_append] at declared
    unfold Stmt.Survives
    rw [Stmt.pruneList_cons, Stmt.walkList_append, Stmt.declaredSymbols_append,
      Stmt.referencedSymbols_append, List.mem_append, List.mem_append]
    rcases declared with here | later
    · rcases Stmt.prune_keeps used s keepsHere here with kept | ⟨hidden, gone⟩
      · exact Or.inl (Or.inl kept)
      · refine Or.inr ⟨List.mem_append_left _ hidden,
          fun h => h.elim gone fun refersLater => ?_⟩
        obtain ⟨z, hz, refers⟩ :=
          Stmt.mem_referencedSymbols.1 (Stmt.pruneList_referenced_subset u rest refersLater)
        obtain ⟨t, ht, hzt⟩ := Stmt.mem_walkList_iff.1 hz
        exact (apart t ht).1 hidden (Stmt.mem_referencedSymbols.2 ⟨z, hzt, refers⟩)
    · rcases Stmt.pruneList_keeps used rest keepsRest later with kept | ⟨hidden, gone⟩
      · exact Or.inl (Or.inr kept)
      · refine Or.inr ⟨List.mem_append_right _ hidden,
          fun h => h.elim (fun refersHere => ?_) gone⟩
        obtain ⟨t, ht, hiddenThere⟩ := Stmt.mem_hiddenList.1 hidden
        exact (apart t ht).2 hiddenThere (Stmt.prune_referenced_subset u s refersHere)
end

end OnePass

/-! ### Runs of passes -/

/-- `q` refers to no more than `p`, and still declares each of `p`'s declarations it refers to. -/
structure Program.KeepsReferenced (p q : Program) : Prop where
  referenced : Stmt.referencedSymbols (Stmt.walkList q) ⊆ Stmt.referencedSymbols (Stmt.walkList p)
  declared : ∀ sym ∈ Stmt.declaredSymbols (Stmt.walkList p),
    sym ∈ Stmt.referencedSymbols (Stmt.walkList q) →
      sym ∈ Stmt.declaredSymbols (Stmt.walkList q)

namespace Program

theorem KeepsReferenced.refl (p : Program) : p.KeepsReferenced p :=
  ⟨List.Subset.refl _, fun _ declared _ => declared⟩

theorem KeepsReferenced.trans {p q r : Program} (first : p.KeepsReferenced q)
    (second : q.KeepsReferenced r) : p.KeepsReferenced r where
  referenced := List.Subset.trans second.referenced first.referenced
  declared sym declared referenced :=
    second.declared sym (first.declared sym declared (second.referenced referenced)) referenced

theorem eliminateOnce_keepsLocals {p : Program} (keeps : p.KeepsLocals) :
    (eliminateOnce p).1.KeepsLocals := by
  rw [eliminateOnce, Stmt.pruneList_eq_filterMap]
  exact (Stmt.prune_thinning _).keepsLocals keeps

/-- A pass over a program that keeps its locals still declares whatever it still refers to. -/
theorem eliminateOnce_keepsReferenced {p : Program} (keeps : p.KeepsLocals) :
    p.KeepsReferenced (eliminateOnce p).1 where
  referenced := Stmt.pruneList_referenced_subset _ p
  declared sym declared referenced := by
    have used : sym ∈ (Usage.ofProgram p).referenced :=
      Stmt.pruneList_referenced_subset (Usage.ofProgram p) p referenced
    rcases Stmt.pruneList_keeps _ used p keeps declared with kept | ⟨-, gone⟩
    · exact kept
    · exact absurd referenced gone

/-- Every run of passes from a program that keeps its locals keeps them, and still declares
whatever it still refers to. -/
theorem eliminateLoop_keepsReferenced :
    ∀ (n : Nat) (p : Program) (r : EliminationReport), p.KeepsLocals →
      (eliminateLoop n (p, r)).1.KeepsLocals ∧ p.KeepsReferenced (eliminateLoop n (p, r)).1
  | 0, _, _, keeps => ⟨keeps, KeepsReferenced.refl _⟩
  | n + 1, p, r, keeps => by
    have pass := eliminateOnce_keepsReferenced keeps
    rw [eliminateLoop_succ]
    split
    · exact ⟨eliminateOnce_keepsLocals keeps, pass⟩
    · apply And.imp id pass.trans
      exact eliminateLoop_keepsReferenced n _ _ (eliminateOnce_keepsLocals keeps)

theorem removeUnused_keepsReferenced (policy : EliminationPolicy) {p : Program}
    (keeps : p.KeepsLocals) : p.KeepsReferenced (p.removeUnused policy).1 :=
  (eliminateLoop_keepsReferenced _ p {} keeps).2

/-- Removing unused declarations, under any policy, from an analyzed program or from the program
of one of its cores, never leaves a reference to something it removed: whatever the result
refers to that the program declared, the result still declares. -/
theorem removeUnused_declares_referenced {registry : Registry} {p : Program} {a : Analyzed}
    {q : Program} (analyzed : Program.analyze registry p = .ok a)
    (source : q = a.program ∨
      ∃ S m c, Program.splitByCore S a.program = .ok m ∧ (c, q) ∈ m)
    (policy : EliminationPolicy) {sym : SymbolId}
    (declared : sym ∈ Stmt.declaredSymbols (Stmt.walkList q))
    (referenced : sym ∈ Stmt.referencedSymbols (Stmt.walkList (q.removeUnused policy).1)) :
    sym ∈ Stmt.declaredSymbols (Stmt.walkList (q.removeUnused policy).1) := by
  have keeps : q.KeepsLocals := by
    rcases source with rfl | ⟨S, m, c, split, member⟩
    · exact analyze_keepsLocals analyzed
    · obtain ⟨affinity, -, rfl⟩ := splitByCore_eq_ok.1 split
      obtain ⟨c', -, same⟩ := List.mem_map.1 member
      cases same
      rw [CoreView.splitBlock_eq_filterMap]
      exact (CoreView.splitStmt_thinning _).keepsLocals (analyze_keepsLocals analyzed)
  exact (removeUnused_keepsReferenced policy keeps).declared sym declared referenced

/-- A drive frame on a port, an integer nothing reads, and a phase shift on the frame. -/
def unusedValueProgram : Program :=
  [.ofKind (.cal [
    .ofKind (.port ⟨"ch1", {}, none⟩),
    .ofKind (.frame ⟨"drive", {}, none⟩ ⟨"ch1", {}, none⟩ (.lit (.int 5)) (.lit (.int 0))),
    .ofKind (.declare ⟨"unused", {}, none⟩ (.int none false) none),
    .ofKind (.update .shiftPhase ⟨"drive", {}, none⟩ (.lit (.int 1)))])]

theorem unusedValueProgram_keepsDrive : ∃ a sym,
    Program.analyze Registry.empty unusedValueProgram = .ok a ∧
      (a.program.removeUnused .fixedPoint).2.removed ≠ [] ∧
      sym ∈ Stmt.declaredSymbols (Stmt.walkList a.program) ∧
      sym ∈ Stmt.referencedSymbols (Stmt.walkList (a.program.removeUnused .fixedPoint).1) ∧
      sym ∈ Stmt.declaredSymbols (Stmt.walkList (a.program.removeUnused .fixedPoint).1) := by
  have found : ((Program.analyze Registry.empty unusedValueProgram).toOption.map fun a =>
      (((Stmt.declaredSymbols (Stmt.walkList a.program)).find? fun s =>
        (Stmt.referencedSymbols
          (Stmt.walkList (a.program.removeUnused .fixedPoint).1)).contains s).isSome &&
        !(a.program.removeUnused .fixedPoint).2.removed.isEmpty)) = some true := by
    decide +kernel
  cases analyzed : Program.analyze Registry.empty unusedValueProgram with
  | error e =>
    rw [analyzed] at found
    cases found
  | ok a =>
    rw [analyzed] at found
    obtain ⟨some, removed⟩ := Bool.and_eq_true_iff.1 (Option.some.inj found)
    obtain ⟨sym, hsym⟩ := Option.isSome_iff_exists.1 some
    have declared := List.mem_of_find?_eq_some hsym
    have referenced := List.contains_iff_mem.1 (List.find?_some hsym)
    refine ⟨a, sym, rfl, by simpa using removed, declared, referenced, ?_⟩
    exact removeUnused_declares_referenced analyzed (Or.inl rfl) .fixedPoint declared referenced

end Program

end PulseCompiler
