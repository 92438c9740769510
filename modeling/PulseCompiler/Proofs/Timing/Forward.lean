import PulseCompiler.Proofs.Timing.Effects
import Mathlib.Order.Basic
set_option autoImplicit false

/-!
# Frame clocks only move forward

A run of the resolver keeps its frame table declared: the clocks list exactly the declared
frames, each once, and every frame parameter stands for one of them
(`Run.Timing.FramesDeclared`). And no step moves a clock back: clocks are ordered frame by frame,
a frame without a clock reading `0`, and every step ends at or past where it began. Both are
facts about one step of a run, held together by the relation `Run.Timing.Advances`; a
computation that ends in that relation wherever it succeeds is `Run.Forward`.

Every step is forward. A declaration starts a clock at the `0` the frame read before. Delays,
plays and captures advance frames with clocks, and a barrier brings its frames to a time no
earlier than the latest of them, whether it takes the time from the clocks or, in a replay,
from the times recorded on it. Binding a frame parameter binds it to a frame with a clock. An
`if` with an unknown condition runs its second branch from the machine it started with and ends
with that branch's clocks and frame parameters. By induction on statements and on the depth of
calls, every statement of every run is forward (`Run.runBlock_forward`).

From there the resolver measures exactly. Where the later clocks are well formed, each
subtraction in `elapsedSince` takes an earlier clock from a later one no smaller than it, and the
result is the largest advance of any clock, which some declared frame reaches
(`FrameClocks.elapsedSince_largest`); it is what a call answers (`Run.invoke_largest`). A
barrier's padding is its time less the earliest of its frames, which is never later than that
time. And the report of a finished run names every declared frame (`Run.report_clock_isSome`).
-/

namespace PulseCompiler

/-! ### The order of clocks -/

section Folds

variable {α : Type} (g : α → Nat)

/-- A running maximum is at least where it starts and at least every value it takes in. -/
theorem foldl_max_bounds : ∀ (l : List α) (init : Nat),
    init ≤ l.foldl (fun m x => Nat.max m (g x)) init ∧
      ∀ x ∈ l, g x ≤ l.foldl (fun m x => Nat.max m (g x)) init
  | [], init => ⟨Nat.le_refl init, fun _ hx => nomatch hx⟩
  | y :: rest, init => by
    obtain ⟨start, each⟩ := foldl_max_bounds rest (Nat.max init (g y))
    refine ⟨Nat.le_trans (Nat.le_max_left _ _) start, fun x hx => ?_⟩
    rcases List.mem_cons.mp hx with rfl | hx
    · exact Nat.le_trans (Nat.le_max_right _ _) start
    · exact each x hx

/-- A running maximum ends where it starts or at one of the values it takes in. -/
theorem foldl_max_attained : ∀ (l : List α) (init : Nat),
    l.foldl (fun m x => Nat.max m (g x)) init = init ∨
      ∃ x ∈ l, l.foldl (fun m x => Nat.max m (g x)) init = g x
  | [], _ => Or.inl rfl
  | y :: rest, init => by
    rcases foldl_max_attained rest (Nat.max init (g y)) with same | ⟨x, hx, value⟩
    · rw [List.foldl_cons, same]
      by_cases larger : init ≤ g y
      · exact Or.inr ⟨y, List.mem_cons_self, Nat.max_eq_right larger⟩
      · exact Or.inl (Nat.max_eq_left (Nat.le_of_not_le larger))
    · exact Or.inr ⟨x, List.mem_cons_of_mem _ hx, value⟩

theorem foldl_min_le : ∀ (l : List α) (init : Nat),
    l.foldl (fun m x => Nat.min m (g x)) init ≤ init
  | [], init => Nat.le_refl init
  | _ :: rest, _ => Nat.le_trans (foldl_min_le rest _) (Nat.min_le_left _ _)

end Folds

namespace FrameClocks

/-- Clocks are ordered frame by frame: `c ≤ d` when no clock of `d` is behind its clock in `c`,
a frame without a clock reading `0`. -/
instance : Preorder FrameClocks where
  le c d := ∀ f, c.get f ≤ d.get f
  le_refl _ _ := Nat.le_refl _
  le_trans _ _ _ h h' f := Nat.le_trans (h f) (h' f)

variable {c c' d : FrameClocks} {f g : SymbolId}

theorem le_def : c ≤ d ↔ ∀ f, c.get f ≤ d.get f := Iff.rfl

/-- Declaring a frame changes no reading: a new clock starts at the `0` its frame read. -/
theorem get_declare (g : SymbolId) : (c.declare f).get g = c.get g := by
  unfold declare
  split
  · rfl
  · simp only [get, find?, List.find?_append]
    cases found : c.times.find? (·.1 == g) with
    | some p => rfl
    | none =>
      simp [List.find?]
      split <;> rfl

theorem le_declare (c : FrameClocks) (f : SymbolId) : c ≤ c.declare f :=
  fun g => Nat.le_of_eq (get_declare g).symm

theorem mem_declare_frames_of_mem (h : g ∈ c.frames) : g ∈ (c.declare f).frames := by
  unfold declare
  split
  · exact h
  · exact List.mem_append_left _ h

theorem le_advance {n start : Nat} (h : c.advance f n = some (start, c')) : c ≤ c' := by
  intro g
  rw [get_advance h g]
  exact Nat.le_add_right _ _

theorem le_advanceEach {fs : List SymbolId} {n : Nat} (h : c.advanceEach fs n = some c') :
    c ≤ c' := by
  intro g
  rw [get_advanceEach h g]
  exact Nat.le_add_right _ _

theorem get_le_latest {fs : List SymbolId} (hf : f ∈ fs) : c.get f ≤ c.latest fs :=
  (foldl_max_bounds c.get fs 0).2 f hf

/-- Among some frames, the earliest clock is no later than the latest. -/
theorem earliest_le_latest (c : FrameClocks) (fs : List SymbolId) :
    c.earliest fs ≤ c.latest fs := by
  cases fs with
  | nil => exact Nat.le_refl 0
  | cons f rest =>
    calc c.earliest (f :: rest) ≤ c.get f := foldl_min_le c.get rest (c.get f)
      _ ≤ c.latest (f :: rest) := get_le_latest List.mem_cons_self

/-- Synchronizing frames to a time no earlier than the latest of them moves no clock back. -/
theorem le_sync {fs : List SymbolId} {t : Nat} (h : c.latest fs ≤ t) : c ≤ c.sync fs t := by
  intro g
  rw [get_sync]
  split
  · rename_i hg
    exact Nat.le_trans (get_le_latest hg) h
  · exact Nat.le_refl _

/-- Advancing frames one after the other keeps the list of declared frames. -/
theorem advanceEach_frames {fs : List SymbolId} {n : Nat} (h : c.advanceEach fs n = some c') :
    c'.frames = c.frames := by
  induction fs generalizing c with
  | nil =>
    simp only [advanceEach, Option.some.injEq] at h
    rw [h]
  | cons f rest ih =>
    obtain ⟨start, c₁, hf, hrest⟩ := advanceEach_cons h
    rw [ih hrest, advance_frames hf]

/-- In a list of entries with distinct keys, looking an entry's key up finds that entry. -/
theorem find?_key_of_mem {l : List (SymbolId × Nat)} (distinct : (l.map Prod.fst).Nodup)
    {p : SymbolId × Nat} (hp : p ∈ l) : l.find? (·.1 == p.1) = some p := by
  induction l with
  | nil => cases hp
  | cons q rest ih =>
    rw [List.map_cons, List.nodup_cons] at distinct
    rcases List.mem_cons.mp hp with rfl | hp
    · simp
    · have other : q.1 ≠ p.1 := fun same => distinct.1 (same ▸ List.mem_map_of_mem hp)
      simp [other, ih distinct.2 hp]

/-- In well-formed clocks every entry is the clock of its frame. -/
theorem get_of_mem_times (wf : c.WellFormed) {p : SymbolId × Nat} (hp : p ∈ c.times) :
    c.get p.1 = p.2 := by
  have found := find?_key_of_mem (wf.1 ▸ wf.2) hp
  simp [get, find?, found]

/-- `t` is the largest advance of any clock from `c` to `d`: every clock that `elapsedSince`
compares has moved forward, none has moved further than `t`, and unless `d` declares no frame
some declared frame has moved exactly `t`. -/
structure LargestAdvance (c d : FrameClocks) (t : Nat) : Prop where
  forward : ∀ p ∈ d.times, c.get p.1 ≤ p.2
  bounded : ∀ f, d.get f ≤ c.get f + t
  attained : d.frames = [] ∧ t = 0 ∨ ∃ f ∈ d.frames, d.get f = c.get f + t

/-- Between clocks that only moved forward, the later well formed, `elapsedSince` takes no clock
from a smaller one and is the largest advance of any clock. -/
theorem elapsedSince_largest (wf : d.WellFormed) (le : c ≤ d) :
    LargestAdvance c d (d.elapsedSince c) := by
  have forward : ∀ p ∈ d.times, c.get p.1 ≤ p.2 := fun p hp =>
    get_of_mem_times wf hp ▸ le p.1
  obtain ⟨-, each⟩ := foldl_max_bounds (fun p : SymbolId × Nat => p.2 - c.get p.1) d.times 0
  refine ⟨forward, fun f => ?_, ?_⟩
  · cases found : d.times.find? (·.1 == f) with
    | none => simp [get, find?, found]
    | some p =>
      have key : p.1 = f := by simpa using List.find?_some found
      have hp := List.mem_of_find?_eq_some found
      have diff := each p hp
      have stays := forward p hp
      have value : d.get f = p.2 := by simp [get, find?, found]
      rw [value, ← key]
      unfold elapsedSince
      omega
  · cases frames : d.frames with
    | nil =>
      have none : d.times = [] := List.map_eq_nil_iff.mp (wf.1.trans frames)
      exact Or.inl ⟨rfl, by simp [elapsedSince, none]⟩
    | cons f rest =>
      have entry : ∃ p ∈ d.times, d.elapsedSince c = p.2 - c.get p.1 := by
        rcases foldl_max_attained (fun p : SymbolId × Nat => p.2 - c.get p.1) d.times 0 with
          zero | ⟨p, hp, value⟩
        · obtain ⟨p, hp⟩ : ∃ p, p ∈ d.times := by
            have keys : d.times.map Prod.fst = f :: rest := wf.1.trans frames
            cases times : d.times with
            | nil => simp [times] at keys
            | cons p more => exact ⟨p, List.mem_cons_self⟩
          have bound := each p hp
          exact ⟨p, hp, by unfold elapsedSince; omega⟩
        · exact ⟨p, hp, value⟩
      obtain ⟨p, hp, value⟩ := entry
      refine Or.inr ⟨p.1, ?_, ?_⟩
      · rw [← frames, ← wf.1]
        exact List.mem_map_of_mem hp
      · rw [get_of_mem_times wf hp, value]
        have := forward p hp
        omega

end FrameClocks

/-! ### The frame table -/

namespace Run.Timing

theorem frameOf?_contains {t : Timing} {i : Ident} {f : SymbolId} (h : t.frameOf? i = some f) :
    t.clocks.contains f = true := by
  simp only [frameOf?, Option.bind_eq_some_iff] at h
  obtain ⟨s, -, h⟩ := h
  split at h
  · cases h
    assumption
  · cases h

theorem mapM_frameOf?_contains {t : Timing} {is : List Ident} {fs : List SymbolId}
    (h : is.mapM t.frameOf? = some fs) : ∀ f ∈ fs, t.clocks.contains f = true := by
  induction is generalizing fs with
  | nil =>
    simp only [List.mapM_nil, Option.pure_def, Option.some.injEq] at h
    subst h
    intro f hf
    cases hf
  | cons i rest ih =>
    simp only [List.mapM_cons, Option.bind_eq_bind, Option.bind_eq_some_iff, Option.pure_def,
      Option.some.injEq] at h
    obtain ⟨f, hf, fs', hfs', rfl⟩ := h
    intro g hg
    rcases List.mem_cons.mp hg with rfl | hg
    · exact frameOf?_contains hf
    · exact ih hfs' g hg

/-- The frame table of a run is declared: the clocks list exactly the declared frames, each once,
and every frame parameter stands for a declared frame. -/
structure FramesDeclared (t : Timing) : Prop where
  clocks : t.clocks.WellFormed
  aliases : ∀ s f : SymbolId, t.aliases[s]? = some f → f ∈ t.clocks.frames

/-- In a declared frame table the frames with clocks are the declared frames. -/
theorem FramesDeclared.contains_iff {t : Timing} (h : t.FramesDeclared) {f : SymbolId} :
    t.clocks.contains f = true ↔ f ∈ t.clocks.frames :=
  FrameClocks.contains_iff_mem h.clocks

/-- What a step of a run may do to its frame table: keep it declared, and move no clock back. -/
structure Advances (t t' : Timing) : Prop where
  declared : t.FramesDeclared → t'.FramesDeclared
  clocks : t.clocks ≤ t'.clocks

namespace Advances

variable {t t₁ t₂ : Timing}

theorem refl (t : Timing) : Advances t t := ⟨id, le_refl _⟩

theorem trans (h₁ : Advances t t₁) (h₂ : Advances t₁ t₂) : Advances t t₂ :=
  ⟨h₂.declared ∘ h₁.declared, le_trans h₁.clocks h₂.clocks⟩

theorem of_frames (clocks : t₁.clocks = t.clocks) (aliases : t₁.aliases = t.aliases) :
    Advances t t₁ where
  declared h := ⟨clocks ▸ h.clocks, fun s f hs => clocks ▸ h.aliases s f (aliases ▸ hs)⟩
  clocks := clocks ▸ le_refl _

theorem of_forgot {syms : List SymbolId} (h : t.Forgot t₁ syms) : Advances t t₁ := by
  obtain ⟨-, same⟩ := h
  rw [same]
  exact .of_frames rfl rfl

theorem declare (t : Timing) (f : SymbolId) (names : Std.HashMap SymbolId String) :
    Advances t { t with clocks := t.clocks.declare f, frameNames := names } where
  declared h :=
    ⟨FrameClocks.declare_wellFormed h.clocks,
      fun s g hs => FrameClocks.mem_declare_frames_of_mem (h.aliases s g hs)⟩
  clocks := FrameClocks.le_declare t.clocks f

/-- Moving clocks forward, keeping them well formed over the same frames when they were. -/
theorem forward {clocks : FrameClocks}
    (kept : t.FramesDeclared → clocks.WellFormed ∧ clocks.frames = t.clocks.frames)
    (le : t.clocks ≤ clocks) : Advances t { t with clocks := clocks } where
  declared h := ⟨(kept h).1, fun s f hs => (kept h).2 ▸ h.aliases s f hs⟩
  clocks := le

theorem insert_alias {f : SymbolId} (hf : t.clocks.contains f = true) (s : SymbolId) :
    Advances t { t with aliases := t.aliases.insert s f } where
  declared h := ⟨h.clocks, fun x g hx => by
    rw [Std.HashMap.getElem?_insert] at hx
    split at hx
    · cases hx
      exact h.contains_iff.mp hf
    · exact h.aliases x g hx⟩
  clocks := le_refl _

end Advances

end Run.Timing

/-! ### Computations that move clocks forward -/

namespace Run

/-- A computation of the resolver that, wherever it succeeds, keeps the frame table declared and
moves no clock back. -/
def Forward {α : Type} (x : RunM α) : Prop :=
  ∀ r a r', x.run r = .ok (a, r') → r.timing.Advances r'.timing

namespace Forward

variable {α β : Type}

theorem of_quiet {x : RunM α} (h : Quiet x) : Forward x := by
  intro r a r' run
  rw [h r a r' run]
  exact .refl _

/-- A computation that keeps the clocks and the frame parameters. -/
theorem of_frames {x : RunM α}
    (h : ∀ r a r', x.run r = .ok (a, r') →
      r'.machine.clocks = r.machine.clocks ∧ r'.machine.aliases = r.machine.aliases) :
    Forward x := by
  intro r a r' run
  obtain ⟨clocks, aliases⟩ := h r a r' run
  exact .of_frames clocks aliases

theorem pure (a : α) : Forward (Pure.pure a : RunM α) := of_quiet (Quiet.pure a)

theorem bind {x : RunM α} {f : α → RunM β} (hx : Forward x) (hf : ∀ a, Forward (f a)) :
    Forward (x >>= f) := by
  intro r b r'' run
  obtain ⟨a, r', first, second⟩ := run_bind_eq_ok.mp run
  exact (hx r a r' first).trans (hf a r' b r'' second)

theorem get_bind {k : Run → RunM α} (hk : ∀ r, Forward (k r)) :
    Forward (MonadState.get >>= k) := by
  intro r a r' run
  exact hk r r a r' (get_bind_run run)

theorem modify {f : Run → Run}
    (hf : ∀ r,
      (f r).machine.clocks = r.machine.clocks ∧ (f r).machine.aliases = r.machine.aliases) :
    Forward (modify f : RunM PUnit) :=
  of_frames fun r u r' run => by
    cases run
    exact hf r

theorem forIn {γ : Type} (xs : List γ) (b : β) {f : γ → β → RunM (ForInStep β)}
    (hf : ∀ x ∈ xs, ∀ b, Forward (f x b)) : Forward (ForIn.forIn xs b f) := by
  induction xs generalizing b with
  | nil => exact pure b
  | cons x xs ih =>
    rw [List.forIn_cons]
    refine (hf x List.mem_cons_self b).bind fun step => ?_
    cases step with
    | done b' => exact pure b'
    | yield b' => exact ih b' fun y hy => hf y (List.mem_cons_of_mem _ hy)

/-- Over a forward computation from a declared frame table, `elapsedSince` is the largest
advance of any clock. -/
theorem largestAdvance {x : RunM α} (hx : Forward x) {r r' : Run} {a : α}
    (declared : r.timing.FramesDeclared) (run : x.run r = .ok (a, r')) :
    FrameClocks.LargestAdvance r.machine.clocks r'.machine.clocks
      (r'.machine.clocks.elapsedSince r.machine.clocks) :=
  have advances := hx r a r' run
  FrameClocks.elapsedSince_largest (advances.declared declared).clocks advances.clocks

end Forward

/-! ### Steps -/

theorem bind_forward (s : SymbolId) (v : Option Value) : Forward (bind s v) := by
  apply Forward.of_frames
  intro r u r' run
  rw [bind_run] at run
  cases run
  exact ⟨rfl, rfl⟩

theorem declareFrame_forward (ctx : RunSetting) (name : Ident) (f ph : Expr) :
    Forward (declareFrame ctx name f ph) := by
  intro r u r' run
  obtain ⟨s, -, t⟩ := declareFrame_run run
  rw [t]
  exact .declare _ s _

theorem declareWaveform_forward (ctx : RunSetting) (stmt : Nat) (name : Ident) (value : Expr) :
    Forward (declareWaveform ctx stmt name value) := by
  intro r u r' run
  obtain ⟨s, -, t⟩ := declareWaveform_run run
  rw [t]
  exact .of_frames rfl rfl

/-- The frames a delay or barrier acts on have clocks: the declared frames, or the frames its
identifiers name. -/
theorem contains_of_listed {t : Timing} {fs : List SymbolId} (h : t.FramesDeclared)
    {resolved : Option (List SymbolId)} (hfs : resolved = some fs)
    (listed : resolved = some t.clocks.frames ∨ ∃ is : List Ident, resolved = is.mapM t.frameOf?) :
    ∀ f ∈ fs, t.clocks.contains f = true := by
  rcases listed with declared | ⟨is, named⟩
  · rw [declared, Option.some.injEq] at hfs
    subst hfs
    exact fun f hf => h.contains_iff.mpr hf
  · rw [named] at hfs
    exact Timing.mapM_frameOf?_contains hfs

/-- A barrier, recording or replaying, brings its frames to one time no earlier than the latest
of them, and logs that time with how far it moved the earliest of them. -/
theorem barrier_syncs {ctx : RunSetting} {stmt : Nat} {range : TextRange}
    {frames : Option (List Ident)} {recorded : List Nat} {r r' : Run} {u : Unit}
    (h : (barrier ctx stmt range frames recorded).run r = .ok (u, r')) :
    ∃ fs time, (match frames with
        | none => some r.timing.clocks.frames
        | some is => is.mapM r.timing.frameOf?) = some fs ∧
      r.machine.clocks.latest fs ≤ time ∧
      r'.timing = { r.timing with clocks := r.timing.clocks.sync fs time } ∧
      r'.barriers = r.barriers.push ⟨stmt, fs.map r.frameName, time,
        if fs.isEmpty then 0 else time - r.machine.clocks.earliest fs⟩ := by
  unfold barrier at h
  extract_lets afterFrames at h
  have frames_ok : ∀ fs (r₁ r₂ : Run) (u : Unit), (afterFrames fs).run r₁ = .ok (u, r₂) →
      ∃ time, r₁.machine.clocks.latest fs ≤ time ∧
        r₂.timing = { r₁.timing with clocks := r₁.timing.clocks.sync fs time } ∧
        r₂.barriers = r₁.barriers.push ⟨stmt, fs.map r₁.frameName, time,
          if fs.isEmpty then 0 else time - r₁.machine.clocks.earliest fs⟩ := by
    intro fs r₁ r₂ u run
    have step := get_bind_run run
    extract_lets clocks latest afterTime at step
    have logged : ∀ time times, latest ≤ time →
        (afterTime time).run { r₁ with replayTimes := times } = .ok (u, r₂) →
        ∃ time, r₁.machine.clocks.latest fs ≤ time ∧
          r₂.timing = { r₁.timing with clocks := r₁.timing.clocks.sync fs time } ∧
          r₂.barriers = r₁.barriers.push ⟨stmt, fs.map r₁.frameName, time,
            if fs.isEmpty then 0 else time - r₁.machine.clocks.earliest fs⟩ := by
      intro time times le rest
      dsimp only [afterTime] at rest
      obtain ⟨v, r₄, hsync, rest⟩ := run_bind_eq_ok.mp rest
      cases hsync
      cases rest
      exact ⟨time, le, rfl, rfl⟩
    split at step
    · obtain ⟨time, r₃, htime, rest⟩ := run_bind_eq_ok.mp step
      cases htime
      exact logged latest r₁.replayTimes (Nat.le_refl _) rest
    · have step := get_bind_run step
      split at step
      · obtain ⟨v, r₃, hset, rest⟩ := run_bind_eq_ok.mp step
        cases hset
        split at rest
        · obtain ⟨time, r₄, htime, rest⟩ := run_bind_eq_ok.mp rest
          cases htime
          exact logged _ _ (by assumption) rest
        · obtain ⟨time, r₄, htime, -⟩ := run_bind_eq_ok.mp rest
          cases htime
      · obtain ⟨time, r₄, htime, -⟩ := run_bind_eq_ok.mp step
        cases htime
  split at h
  · have step := get_bind_run h
    obtain ⟨fs, r₁, hfs, rest⟩ := run_bind_eq_ok.mp step
    cases hfs
    obtain ⟨time, spec⟩ := frames_ok _ _ _ u rest
    exact ⟨_, time, rfl, spec⟩
  · obtain ⟨fs, r₁, hfs, rest⟩ := run_bind_eq_ok.mp h
    obtain ⟨hfs, rfl⟩ := resolveFrames_run hfs
    obtain ⟨time, spec⟩ := frames_ok _ _ _ u rest
    exact ⟨fs, time, hfs, spec⟩

/-! ### The frames a timed statement acts on -/

/-- A delay advances frames that have clocks: the declared frames, or those its identifiers
name. -/
theorem delay_advances_clocked {ctx : RunSetting} {stmt : Nat} {range : TextRange} {d : Expr}
    {frames : List Ident} {r r' : Run} {u : Unit} (declared : r.timing.FramesDeclared)
    (h : (delay ctx stmt range d frames).run r = .ok (u, r')) :
    ∃ fs samples, (∀ f ∈ fs, r.machine.clocks.contains f = true) ∧
      r.machine.clocks.advanceEach fs samples = some r'.machine.clocks := by
  obtain ⟨samples, rounded, fs, -, hfs, hadv, -⟩ := delay_run h
  refine ⟨fs, samples, contains_of_listed declared hfs ?_, hadv⟩
  split
  · exact Or.inl rfl
  · exact Or.inr ⟨frames, rfl⟩

theorem pulse_advances_clocked {ctx : RunSetting} {stmt : Nat} {range : TextRange}
    {kind : TimedKind} {frame : Ident} {waveform : Expr} {r r' : Run} {u : Unit}
    (h : (pulse ctx stmt range kind frame waveform).run r = .ok (u, r')) :
    ∃ f samples start, r.machine.clocks.contains f = true ∧
      r.machine.clocks.advance f samples = some (start, r'.machine.clocks) := by
  obtain ⟨f, w, start, hf, -, hadv, -⟩ := pulse_run h
  exact ⟨f, w.samples, start, Timing.frameOf?_contains hf, hadv⟩

theorem barrier_syncs_clocked {ctx : RunSetting} {stmt : Nat} {range : TextRange}
    {frames : Option (List Ident)} {recorded : List Nat} {r r' : Run} {u : Unit}
    (declared : r.timing.FramesDeclared)
    (h : (barrier ctx stmt range frames recorded).run r = .ok (u, r')) :
    ∃ fs time, (∀ f ∈ fs, r.machine.clocks.contains f = true) ∧
      r'.machine.clocks = r.machine.clocks.sync fs time := by
  obtain ⟨fs, time, hfs, -, t, -⟩ := barrier_syncs h
  refine ⟨fs, time, contains_of_listed declared hfs ?_, congrArg Timing.clocks t⟩
  cases frames with
  | none => exact Or.inl rfl
  | some is => exact Or.inr ⟨is, rfl⟩

/-! ### Timed statements, loops, branches and calls -/

theorem delay_forward (ctx : RunSetting) (stmt : Nat) (range : TextRange) (d : Expr)
    (frames : List Ident) : Forward (delay ctx stmt range d frames) := by
  intro r u r' run
  obtain ⟨samples, rounded, fs, -, -, hadv, t⟩ := delay_run run
  rw [t]
  refine .forward (fun declared => ?_) (FrameClocks.le_advanceEach hadv)
  obtain ⟨fs', n, contained, hadv'⟩ := delay_advances_clocked declared run
  obtain ⟨wf, same, -⟩ := FrameClocks.advanceEach_wellFormed declared.clocks contained hadv'
  exact ⟨wf, same⟩

theorem pulse_forward (ctx : RunSetting) (stmt : Nat) (range : TextRange) (kind : TimedKind)
    (frame : Ident) (waveform : Expr) : Forward (pulse ctx stmt range kind frame waveform) := by
  intro r u r' run
  obtain ⟨f, w, start, -, -, -, t⟩ := pulse_run run
  obtain ⟨f', samples, start', contains, hadv⟩ := pulse_advances_clocked run
  rw [t]
  exact .forward
    (fun declared => ⟨FrameClocks.advance_wellFormed declared.clocks contains hadv,
      FrameClocks.advance_frames hadv⟩)
    (FrameClocks.le_advance hadv)

theorem update_forward (ctx : RunSetting) (stmt : Nat) (op : FrameOp) (frame : Ident)
    (value : Expr) : Forward (update ctx stmt op frame value) := by
  intro r u r' run
  obtain ⟨f, -, t⟩ := update_run run
  rw [t]
  exact .refl _

/-- A barrier moves no clock back: in a replay too, since a recorded time before the latest of
its frames fails the run. -/
theorem barrier_forward (ctx : RunSetting) (stmt : Nat) (range : TextRange)
    (frames : Option (List Ident)) (recorded : List Nat) :
    Forward (barrier ctx stmt range frames recorded) := by
  intro r u r' run
  obtain ⟨fs, time, -, later, t, -⟩ := barrier_syncs run
  rw [t]
  refine .forward (fun declared => ?_) (FrameClocks.le_sync later)
  obtain ⟨fs', time', contained, synced⟩ := barrier_syncs_clocked declared run
  have same : r.timing.clocks.sync fs time = r.machine.clocks.sync fs' time' :=
    (congrArg Timing.clocks t).symm.trans synced
  rw [same]
  exact ⟨FrameClocks.sync_wellFormed declared.clocks contained _, FrameClocks.sync_frames _ _⟩

theorem whileLoop_forward (ctx : RunSetting) (stmt : Nat) (range : TextRange) (cond : Expr)
    (bodyStmts : List Stmt) : Forward (whileLoop ctx stmt range cond bodyStmts) := by
  intro r u r' run
  rcases whileLoop_run run with ⟨-, t⟩ | ⟨-, forgot⟩
  · rw [t]
    exact .refl _
  · exact .of_forgot forgot

theorem forLoop_forward (ctx : RunSetting) (stmt : Nat) (range : TextRange) (var : Ident)
    (it : Iteration) (bodyStmts : List Stmt) {body : RunM Unit} (hbody : Forward body) :
    Forward (forLoop ctx stmt range var it bodyStmts body) := by
  intro r u r' run
  obtain ⟨v, -, ⟨-, -, forgot⟩ | ⟨values, r₁, r₂, -, same, hloop, t⟩⟩ := forLoop_run run
  · exact .of_forgot forgot
  · have trips : Forward (ForIn.forIn values PUnit.unit (trip v body)) :=
      Forward.forIn _ _ fun x _ _ =>
        (bind_forward v (some x)).bind fun _ => hbody.bind fun _ => Forward.pure _
    have advances := trips r₁ _ r₂ hloop
    rw [same] at advances
    rw [t]
    exact advances

/-- An `if` is forward when its branches are. With an unknown condition the second branch
starts again from the clocks and frame parameters the first started from, and the run ends with
the second branch's. -/
theorem branch_forward (ctx : RunSetting) (stmt : Nat) (range : TextRange) (cond : Expr)
    {thenPart elsePart : RunM Unit} (hthen : Forward thenPart) (helse : Forward elsePart) :
    Forward (branch ctx stmt range cond thenPart elsePart) := by
  intro r u r' run
  rcases branch_run run with ⟨-, r₁, taken, t⟩ | ⟨-, r₁, taken, t⟩ |
      ⟨-, r₁, r₂, -, second, -, t⟩
  · rw [t]
    exact hthen r _ r₁ taken
  · rw [t]
    exact helse r _ r₁ taken
  · have restart : r.timing.Advances ({ r₁ with machine := r.machine } : Run).timing :=
      .of_frames rfl rfl
    rw [t]
    exact restart.trans ((helse _ _ r₂ second).trans (.of_frames rfl rfl))

/-- Binding the parameters of a call binds frame parameters to frames with clocks. -/
theorem bindParams_forward (ctx : RunSetting) (bindings : List (Param × Expr)) :
    Forward (ForIn.forIn bindings PUnit.unit (bindParam ctx)) := by
  refine Forward.forIn _ _ fun x _ u r step r' run => ?_
  obtain ⟨q, a⟩ := x
  obtain ⟨-, ⟨-, rfl⟩ | ⟨ps, -, ⟨-, -, rfl⟩ | ⟨-, i, f, -, hf, rfl⟩ | ⟨-, rfl⟩⟩⟩ :=
    bindParam_run run
  · exact .refl _
  · exact .refl _
  · exact .insert_alias (Timing.frameOf?_contains hf) ps
  · exact .of_frames rfl rfl

theorem bindParams_clocks (ctx : RunSetting) :
    ∀ (bindings : List (Param × Expr)) {r r' : Run} {u : PUnit},
      (ForIn.forIn bindings PUnit.unit (bindParam ctx)).run r = .ok (u, r') →
      r'.machine.clocks = r.machine.clocks
  | [], r, r', u, run => by
    cases run
    rfl
  | (q, a) :: rest, r, r', u, run => by
    rw [List.forIn_cons] at run
    obtain ⟨step, r₁, first, later⟩ := run_bind_eq_ok.mp run
    obtain ⟨rfl, kept⟩ := bindParam_run first
    have bound : r₁.machine.clocks = r.machine.clocks := by
      obtain ⟨-, rfl⟩ | ⟨ps, -, ⟨-, -, rfl⟩ | ⟨-, i, f, -, -, rfl⟩ | ⟨-, rfl⟩⟩ := kept <;> rfl
    exact (bindParams_clocks ctx rest later).trans bound

section Calls

variable {runBody : List Stmt → RunM Unit}

/-- A call is forward when callee bodies are: binding its parameters and pushing and popping
the call stack touch no clock. -/
theorem invoke_forward (hbody : ∀ body, Forward (runBody body)) (ctx : RunSetting)
    (name : Ident) (args : List Expr) (range : TextRange) :
    Forward (invoke runBody ctx name args range) := by
  intro r n r' run
  obtain ⟨g, callee, r₁, r₂, -, -, -, hparams, hrun, t, -⟩ := invoke_run run
  have pushed : r₁.timing.Advances ({ r₁ with callStack := g :: r₁.callStack } : Run).timing :=
    .of_frames rfl rfl
  rw [t]
  exact (bindParams_forward ctx _ r _ r₁ hparams).trans
    (pushed.trans ((hbody _ _ _ r₂ hrun).trans (.of_frames rfl rfl)))

theorem inlineCall_forward (hbody : ∀ body, Forward (runBody body)) (ctx : RunSetting)
    (e : Expr) (range : TextRange) : Forward (inlineCall runBody ctx e range) := by
  intro r res r' run
  rcases inlineCall_run run with ⟨name, args, s, n, -, -, -, called⟩ | ⟨-, rfl⟩
  · exact invoke_forward hbody ctx name args range r n r' called
  · exact .refl _

/-- What a call answers is the largest advance of any clock over it, when callee bodies are
forward and the call starts with its frame table declared. -/
theorem invoke_largest (hbody : ∀ body, Forward (runBody body)) {ctx : RunSetting}
    {name : Ident} {args : List Expr} {range : TextRange} {r r' : Run} {n : Nat}
    (declared : r.timing.FramesDeclared)
    (h : (invoke runBody ctx name args range).run r = .ok (n, r')) :
    FrameClocks.LargestAdvance r.machine.clocks r'.machine.clocks n := by
  obtain ⟨g, callee, r₁, r₂, -, -, -, hparams, -, t, answer⟩ := invoke_run h
  have ended : r'.machine.clocks = r₂.machine.clocks := congrArg Timing.clocks t
  rw [answer, ← ended, bindParams_clocks ctx _ hparams]
  exact (invoke_forward hbody ctx name args range).largestAdvance declared h

end Calls

end Run

/-! ### Statements and blocks -/

section Blocks

variable {runBody : List Stmt → RunM Unit}

open Run

mutual
theorem execStmt_forward (hbody : ∀ body, Forward (runBody body)) :
    ∀ (ctx : RunSetting) (s : Stmt), Forward (execStmt ctx runBody s)
  | ctx, .mk id range _ kind => execKind_forward hbody id range ctx kind

/-- Every kind of statement is forward, given that callee bodies are. -/
theorem execKind_forward (hbody : ∀ body, Forward (runBody body)) (id : Nat)
    (range : TextRange) :
    ∀ (ctx : RunSetting) (k : StmtKind), Forward (execKind ctx runBody id range k)
  | _, .grammar _ | _, .port _ | _, .output .. | _, .ret _ => Forward.pure ()
  | ctx, .frame name _ f ph => declareFrame_forward ctx name f ph
  | ctx, .waveform name value _ => declareWaveform_forward ctx id name value
  | ctx, .declare name _ (some e) =>
    (Forward.of_quiet (symbolOf_quiet name)).bind fun s =>
      (inlineCall_forward hbody ctx e range).bind fun _ =>
        (Forward.of_quiet (fold_quiet ctx e)).bind fun v => bind_forward s v
  | _, .declare name _ none =>
    (Forward.of_quiet (symbolOf_quiet name)).bind fun s => bind_forward s none
  | _, .input name _ =>
    (Forward.of_quiet (symbolOf_quiet name)).bind fun s => bind_forward s none
  | _, .subroutine name _ _ _ | _, .defcal name _ _ _ _ =>
    (Forward.of_quiet (symbolOf_quiet name)).bind fun _ => Forward.modify fun _ => ⟨rfl, rfl⟩
  | ctx, .cal body => execBlock_forward hbody ctx body
  | ctx, .gate name args _ =>
    (invoke_forward hbody ctx name args range).bind fun t =>
      Forward.of_quiet (recordDuration_quiet id t)
  | ctx, .expr e =>
    (inlineCall_forward hbody ctx e range).bind fun res => by
      cases res with
      | some t => exact Forward.of_quiet (recordDuration_quiet id t)
      | none => exact Forward.pure ()
  | ctx, .assign target op value =>
    (inlineCall_forward hbody ctx value range).bind fun _ =>
      (Forward.of_quiet (symbolOf_quiet target)).bind fun s => by
        cases op with
        | none => exact (Forward.of_quiet (fold_quiet ctx value)).bind fun v => bind_forward s v
        | some _ => exact (Forward.of_quiet (fold_quiet ctx _)).bind fun v => bind_forward s v
  | ctx, .forLoop var _ it body =>
    forLoop_forward ctx id range var it body (execBlock_forward hbody ctx body)
  | ctx, .whileLoop cond body => whileLoop_forward ctx id range cond body
  | ctx, .branch cond t (some e) =>
    branch_forward ctx id range cond (execBlock_forward hbody ctx t)
      (execBlock_forward hbody ctx e)
  | ctx, .branch cond t none =>
    branch_forward ctx id range cond (execBlock_forward hbody ctx t) (Forward.pure ())
  | ctx, .delay d frames => delay_forward ctx id range d frames
  | ctx, .play f w => pulse_forward ctx id range .play f w
  | ctx, .capture f w => pulse_forward ctx id range .capture f w
  | ctx, .barrier frames recorded => barrier_forward ctx id range frames recorded
  | ctx, .update op f v => update_forward ctx id op f v

theorem execBlock_forward (hbody : ∀ body, Forward (runBody body)) :
    ∀ (ctx : RunSetting) (b : List Stmt), Forward (execBlock ctx runBody b)
  | _, [] => Forward.pure ()
  | ctx, s :: rest =>
    (execStmt_forward hbody ctx s).bind fun _ => execBlock_forward hbody ctx rest
end

end Blocks

namespace Run

/-- Every run of a block is forward, by induction on the depth of calls it allows: the bodies a
call runs one level down are. -/
theorem runBlock_forward (ctx : RunSetting) : ∀ (depth : Nat) (stmts : List Stmt),
    Forward (runBlock ctx depth stmts)
  | 0, _ => by
    intro r a r' run
    cases run
  | depth + 1, stmts => execBlock_forward (runBlock_forward ctx depth) ctx stmts

theorem framesDeclared_empty : ({} : Run).timing.FramesDeclared where
  clocks := FrameClocks.empty_wellFormed
  aliases s f h := by simp at h

/-- A finished run of a program leaves its frame table declared. -/
theorem framesDeclared_of_run {ctx : RunSetting} {p : Program} {r : Run}
    (h : p.run ctx = .ok r) : r.timing.FramesDeclared := by
  unfold Program.run at h
  cases run : (runBlock ctx (definitionCount p + 1) p).run {} with
  | error e =>
    rw [run] at h
    cases h
  | ok last =>
    rw [run] at h
    cases h
    exact (runBlock_forward ctx _ p {} last.1 last.2 run).declared framesDeclared_empty

end Run

/-! ### The report names every frame -/

/-- Inserting by name keeps every name of the table and adds the new one. -/
theorem mem_insertByName_keys {α : Type} (k : String) (v : α) (l : List (String × α))
    (x : String) : x ∈ (insertByName k v l).map Prod.fst ↔ x = k ∨ x ∈ l.map Prod.fst := by
  induction l with
  | nil => simp [insertByName]
  | cons e rest ih =>
    obtain ⟨k', v'⟩ := e
    unfold insertByName
    split
    · simp
    · split
      · rename_i same
        rw [beq_iff_eq] at same
        subst same
        simp
      · simp only [List.map_cons, List.mem_cons, ih]
        tauto

/-- Folding entries into a table keeps the names it had and adds theirs, when each step
does. -/
theorem mem_foldl_keys {α β : Type} {step : List (String × α) → String × β → List (String × α)}
    (keeps : ∀ acc e x, x = e.1 ∨ x ∈ acc.map Prod.fst → x ∈ (step acc e).map Prod.fst) :
    ∀ (entries : List (String × β)) (init : List (String × α)) (x : String),
      x ∈ entries.map Prod.fst ∨ x ∈ init.map Prod.fst →
        x ∈ (entries.foldl step init).map Prod.fst
  | [], _, _, h => by simpa using h
  | e :: rest, init, x, h => by
    refine mem_foldl_keys keeps rest (step init e) x ?_
    rcases h with named | kept
    · rcases List.mem_cons.mp named with first | later
      · exact Or.inr (keeps init e x (Or.inl first))
      · exact Or.inl later
    · exact Or.inr (keeps init e x (Or.inr kept))

/-- The report of a run gives a final clock for every declared frame, under its name. -/
theorem Run.report_clock_isSome (r : Run) {f : SymbolId} (hf : f ∈ r.machine.clocks.frames) :
    (r.report.clock? (r.frameName f)).isSome := by
  have named : r.frameName f ∈ r.report.finalClocks.map Prod.fst := by
    refine mem_foldl_keys (fun acc e x h => ?_) _ [] _ (Or.inl ?_)
    · obtain ⟨n, g⟩ := e
      exact (mem_insertByName_keys n _ acc x).mpr h
    · rw [List.map_map]
      exact List.mem_map_of_mem hf
  obtain ⟨⟨n, t⟩, mem, same⟩ := List.mem_map.mp named
  unfold ClockReport.clock?
  rw [Option.isSome_map, List.find?_isSome]
  exact ⟨(n, t), mem, by simpa using same⟩

/-! ### The frame table stays declared, and clocks never go back -/

namespace Run

/-- The frame table of the resolver stays declared. It is declared when a run starts; a
statement run from a declared table leaves it declared, in either mode and at any depth of
calls; the frames a delay, play, capture or barrier moves are declared frames, so no step gives a
clock to a frame that was not declared; and a finished run has its table declared, with every
frame that has a clock named in its report. -/
theorem frames_stay_declared (ctx : RunSetting) :
    ({} : Run).timing.FramesDeclared ∧
    (∀ (depth : Nat) (s : Stmt) (r r' : Run), r.timing.FramesDeclared →
      (execStmt ctx (runBlock ctx depth) s).run r = .ok ((), r') → r'.timing.FramesDeclared) ∧
    (∀ (stmt : Nat) (range : TextRange) (d : Expr) (frames : List Ident) (r r' : Run),
      r.timing.FramesDeclared → (delay ctx stmt range d frames).run r = .ok ((), r') →
      ∃ fs samples, (∀ f ∈ fs, f ∈ r.machine.clocks.frames) ∧
        r.machine.clocks.advanceEach fs samples = some r'.machine.clocks) ∧
    (∀ (stmt : Nat) (range : TextRange) (kind : TimedKind) (frame : Ident) (waveform : Expr)
      (r r' : Run), r.timing.FramesDeclared →
      (pulse ctx stmt range kind frame waveform).run r = .ok ((), r') →
      ∃ f ∈ r.machine.clocks.frames, ∃ samples start,
        r.machine.clocks.advance f samples = some (start, r'.machine.clocks)) ∧
    (∀ (stmt : Nat) (range : TextRange) (frames : Option (List Ident)) (recorded : List Nat)
      (r r' : Run), r.timing.FramesDeclared →
      (barrier ctx stmt range frames recorded).run r = .ok ((), r') →
      ∃ fs time, (∀ f ∈ fs, f ∈ r.machine.clocks.frames) ∧
        r'.machine.clocks = r.machine.clocks.sync fs time) ∧
    (∀ (p : Program) (r : Run), p.run ctx = .ok r → r.timing.FramesDeclared ∧
      ∀ f, r.machine.clocks.contains f = true → (r.report.clock? (r.frameName f)).isSome) := by
  refine ⟨framesDeclared_empty, ?_, ?_, ?_, ?_, ?_⟩
  · intro depth s r r' declared run
    exact (execStmt_forward (runBlock_forward ctx depth) ctx s r () r' run).declared declared
  · intro stmt range d frames r r' declared run
    obtain ⟨fs, samples, contained, hadv⟩ := delay_advances_clocked declared run
    exact ⟨fs, samples, fun f hf => declared.contains_iff.mp (contained f hf), hadv⟩
  · intro stmt range kind frame waveform r r' declared run
    obtain ⟨f, samples, start, contains, hadv⟩ := pulse_advances_clocked run
    exact ⟨f, declared.contains_iff.mp contains, samples, start, hadv⟩
  · intro stmt range frames recorded r r' declared run
    obtain ⟨fs, time, contained, synced⟩ := barrier_syncs_clocked declared run
    exact ⟨fs, time, fun f hf => declared.contains_iff.mp (contained f hf), synced⟩
  · intro p r run
    have declared := framesDeclared_of_run run
    exact ⟨declared, fun f hf => report_clock_isSome r (declared.contains_iff.mp hf)⟩

/-- No statement moves a clock back, and so the resolver measures exactly. Over a statement run
in either mode, with the calls, loops and branches in it, every clock ends at or past where it
began; from a declared frame table `elapsedSince` is then the largest advance of any clock, and
that is what a call answers; and a barrier synchronizes to a time no earlier than the latest of
its frames, logging as padding how far the earliest of them moved. -/
theorem clocks_never_go_back (ctx : RunSetting) :
    (∀ (depth : Nat) (s : Stmt) (r r' : Run),
      (execStmt ctx (runBlock ctx depth) s).run r = .ok ((), r') →
      r.machine.clocks ≤ r'.machine.clocks ∧
      (r.timing.FramesDeclared → FrameClocks.LargestAdvance r.machine.clocks r'.machine.clocks
        (r'.machine.clocks.elapsedSince r.machine.clocks))) ∧
    (∀ (depth : Nat) (name : Ident) (args : List Expr) (range : TextRange) (r r' : Run) (n : Nat),
      r.timing.FramesDeclared →
      (invoke (runBlock ctx depth) ctx name args range).run r = .ok (n, r') →
      FrameClocks.LargestAdvance r.machine.clocks r'.machine.clocks n) ∧
    (∀ (stmt : Nat) (range : TextRange) (frames : Option (List Ident)) (recorded : List Nat)
      (r r' : Run), (barrier ctx stmt range frames recorded).run r = .ok ((), r') →
      ∃ fs time, r.machine.clocks.earliest fs ≤ r.machine.clocks.latest fs ∧
        r.machine.clocks.latest fs ≤ time ∧ r'.machine.clocks = r.machine.clocks.sync fs time ∧
        r'.barriers = r.barriers.push ⟨stmt, fs.map r.frameName, time,
          if fs.isEmpty then 0 else time - r.machine.clocks.earliest fs⟩) := by
  refine ⟨fun depth s r r' run => ?_, ?_, ?_⟩
  · have forward := execStmt_forward (runBlock_forward ctx depth) ctx s
    exact ⟨(forward r () r' run).clocks, fun declared => forward.largestAdvance declared run⟩
  · intro depth name args range r r' n declared run
    exact invoke_largest (runBlock_forward ctx depth) declared run
  · intro stmt range frames recorded r r' run
    obtain ⟨fs, time, -, later, t, logged⟩ := barrier_syncs run
    exact ⟨fs, time, FrameClocks.earliest_le_latest _ fs, later, congrArg Timing.clocks t, logged⟩

end Run

end PulseCompiler
