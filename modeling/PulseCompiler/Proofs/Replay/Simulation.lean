import PulseCompiler.Proofs.Replay.Oblivious
import PulseCompiler.Proofs.Replay.Annotation
set_option autoImplicit false

/-!
# A replay follows the recording it was annotated from

A recording of a program and a replay of the program annotated from it run side by side.
They differ in two tables only: the replay's callables hold annotated bodies, and the replay
keeps cursors into the recorded barrier times. `Replays future recorded replayed` says that
the two runs agree in everything else, and that for every barrier statement the replay's
next times are the times the recording is still to log, `future` being the rest of the
recording's barrier log.

`Simulates x y` says that whenever the recording step `x` succeeds, appending some barriers
to the log, the replay step `y` succeeds with the same value from any replay state that
follows, and ends in a state that follows. The relation composes along `bind`, every
oblivious step simulates itself, and a barrier simulates its annotated copy because a
replay reads back exactly the time the recording logged.
-/

namespace PulseCompiler

/-- A callable as a program annotated from a recording defines it. -/
def Callable.annotate (durations : Std.HashMap Nat SampleRange)
    (times : Std.HashMap Nat (List Nat)) (c : Callable) : Callable :=
  ⟨c.params, Stmt.annotateList durations times c.body⟩

/-- A recording step only appends to the barrier log. -/
def Grows {α : Type} (x : RunM α) : Prop :=
  ∀ r a r', x.run r = .ok (a, r') → r.barriers.toList <+: r'.barriers.toList

section Replay

variable (durations : Std.HashMap Nat SampleRange) (times : Std.HashMap Nat (List Nat))

/-- A replay state that follows a recording state, given the barriers the recording is still
to log. -/
structure Replays (future : List BarrierSync) (recorded replayed : Run) : Prop where
  /-- Everything but the callables and the cursors is the same. -/
  visible : replayed = recorded.hide replayed.callables replayed.replayTimes
  /-- The replay defined the same callables, with annotated bodies. -/
  callables : ∀ s, replayed.callables.get? s =
    (recorded.callables.get? s).map (Callable.annotate durations times)
  /-- Each barrier's next recorded times, from its cursor or else from its annotation, are
  the times the recording is still to log for it. -/
  cursor : ∀ stmt, (replayed.replayTimes.get? stmt).getD (times.getD stmt []) =
    timesAt future stmt
  /-- Every barrier still to be logged has times in the annotation. -/
  annotated : ∀ b ∈ future, times.contains b.stmt = true

/-- From states that follow each other, the replay step `y` succeeds wherever the recording
step `x` does, with the same value, in states that follow each other. -/
def Tracks {α : Type} (x y : RunM α) (recorded replayed : Run) : Prop :=
  ∀ a recorded' fresh future, x.run recorded = .ok (a, recorded') →
    recorded'.barriers.toList = recorded.barriers.toList ++ fresh →
    Replays durations times (fresh ++ future) recorded replayed →
    ∃ replayed', y.run replayed = .ok (a, replayed') ∧
      Replays durations times future recorded' replayed'

/-- The replay step `y` follows the recording step `x` from every pair of states. -/
structure Simulates {α : Type} (x y : RunM α) : Prop where
  grows : Grows x
  tracks : ∀ recorded replayed, Tracks durations times x y recorded replayed

variable {durations times}

namespace Replays

/-- The replay state is the recording state with the replay's own two tables. -/
theorem eq_hide {future : List BarrierSync} {recorded replayed : Run}
    (h : Replays durations times future recorded replayed) :
    ∃ callables cursors, replayed = recorded.hide callables cursors :=
  ⟨_, _, h.visible⟩

/-- A recording step that keeps the callables is followed by the replay state with the same
two tables. -/
theorem keep {future : List BarrierSync} {recorded recorded' : Run}
    {callables : Std.HashMap SymbolId Callable} {cursors : Std.HashMap Nat (List Nat)}
    (h : Replays durations times future recorded (recorded.hide callables cursors))
    (same : recorded'.callables = recorded.callables) :
    Replays durations times future recorded' (recorded'.hide callables cursors) where
  visible := rfl
  callables s := by
    rw [same]
    exact h.callables s
  cursor := h.cursor
  annotated := h.annotated

theorem contains {future : List BarrierSync} {recorded replayed : Run}
    (h : Replays durations times future recorded replayed) (s : SymbolId) :
    replayed.callables.contains s = recorded.callables.contains s := by
  rw [Std.HashMap.contains_eq_isSome_getElem?, Std.HashMap.contains_eq_isSome_getElem?]
  have same := h.callables s
  simp only [Std.HashMap.get?_eq_getElem?] at same
  rw [same, Option.isSome_map]

/-- Every recording state is followed by a replay state once no barrier is left to log: the
one holding the annotated callables and an empty cursor for every annotated barrier. -/
theorem caughtUp (recorded : Run) :
    Replays durations times [] recorded
      (recorded.hide (recorded.callables.map fun _ c => c.annotate durations times)
        (times.map fun _ _ => [])) where
  visible := rfl
  callables s := Std.HashMap.getElem?_map
  cursor stmt := by
    simp only [Run.hide_replayTimes, timesAt_nil]
    cases known : times[stmt]? with
    | none => simp [Std.HashMap.getElem?_map, known, Std.HashMap.getD_eq_getD_getElem?]
    | some ts => simp [Std.HashMap.getElem?_map, known]
  annotated _ mem := nomatch mem

end Replays

namespace Simulates

variable {α β : Type}

theorem of_oblivious {x : RunM α} (h : Oblivious x) : Simulates durations times x x where
  grows := by
    intro r a r' hx
    simp only [h.barriers r a r' hx, List.prefix_refl]
  tracks := by
    intro recorded replayed a recorded' fresh future hx log follows
    obtain ⟨callables, cursors, rfl⟩ := follows.eq_hide
    have no_fresh : fresh = [] := by
      rw [h.barriers _ _ _ hx] at log
      simpa using log
    subst no_fresh
    refine ⟨recorded'.hide callables cursors, ?_, follows.keep (h.tables hx).1⟩
    rw [h.run_hide, hx]
    rfl

theorem pure (a : α) : Simulates durations times (Pure.pure a) (Pure.pure a) :=
  of_oblivious (Oblivious.pure a)

theorem bind {x x' : RunM α} {f f' : α → RunM β} (hx : Simulates durations times x x')
    (hf : ∀ a, Simulates durations times (f a) (f' a)) :
    Simulates durations times (x >>= f) (x' >>= f') where
  grows := by
    intro r b r'' h
    obtain ⟨a, r', first, second⟩ := run_bind_eq_ok.mp h
    exact (hx.grows _ _ _ first).trans ((hf a).grows _ _ _ second)
  tracks := by
    intro recorded replayed b recorded'' fresh future h log follows
    obtain ⟨a, recorded', first, second⟩ := run_bind_eq_ok.mp h
    obtain ⟨fresh₁, log₁⟩ := hx.grows _ _ _ first
    obtain ⟨fresh₂, log₂⟩ := (hf a).grows _ _ _ second
    have split : fresh = fresh₁ ++ fresh₂ := by
      rw [← log₂, ← log₁, List.append_assoc] at log
      exact (List.append_cancel_left log).symm
    subst split
    rw [List.append_assoc] at follows
    obtain ⟨replayed', first', follows'⟩ :=
      hx.tracks recorded replayed a recorded' fresh₁ _ first log₁.symm follows
    obtain ⟨replayed'', second', follows''⟩ :=
      (hf a).tracks recorded' replayed' b recorded'' fresh₂ future second log₂.symm follows'
    exact ⟨replayed'', run_bind_eq_ok.mpr ⟨a, replayed', first', second'⟩, follows''⟩

/-- Reading the run replays as reading the run, when the recording goes on from what it read
as the replay goes on from what it read in a state that follows. -/
theorem get_bind_follows {k k' : Run → RunM α}
    (hk : ∀ future recorded replayed, Replays durations times future recorded replayed →
      Simulates durations times (k recorded) (k' replayed)) :
    Simulates durations times (MonadState.get >>= k) (MonadState.get >>= k') where
  grows r a r' h := (hk [] r _ (Replays.caughtUp r)).grows r a r' h
  tracks recorded replayed a recorded' fresh future h log follows :=
    (hk _ recorded replayed follows).tracks recorded replayed a recorded' fresh future h log follows

/-- Reading the run replays as reading the run when the replay goes on by what the two runs
share. -/
theorem get_bind {k k' : Run → RunM α} (hk : ∀ r, Simulates durations times (k r) (k' r))
    (hv : ∀ r c t, k' (r.hide c t) = k' r) :
    Simulates durations times (MonadState.get >>= k) (MonadState.get >>= k') := by
  refine get_bind_follows fun future recorded replayed follows => ?_
  obtain ⟨callables, cursors, rfl⟩ := follows.eq_hide
  rw [hv]
  exact hk recorded

theorem map {x x' : RunM α} (f : α → β) (hx : Simulates durations times x x') :
    Simulates durations times (f <$> x) (f <$> x') := by
  rw [map_eq_pure_bind, map_eq_pure_bind]
  exact hx.bind fun a => pure (f a)

theorem forIn {γ : Type} (xs : List γ) (b : β) {f f' : γ → β → RunM (ForInStep β)}
    (hf : ∀ x b, Simulates durations times (f x b) (f' x b)) :
    Simulates durations times (ForIn.forIn xs b f) (ForIn.forIn xs b f') := by
  induction xs generalizing b with
  | nil => exact pure b
  | cons x xs ih =>
    rw [List.forIn_cons, List.forIn_cons]
    refine (hf x b).bind fun step => ?_
    cases step with
    | done b' => exact pure b'
    | yield b' => exact ih b'

end Simulates

/-- When the recording logs one more barrier, the replay that has read its time back with the
cursor of its statement follows. -/
theorem Replays.read {future : List BarrierSync} {b : BarrierSync} {recorded recorded' : Run}
    {callables : Std.HashMap SymbolId Callable} {cursors : Std.HashMap Nat (List Nat)}
    (h : Replays durations times (b :: future) recorded (recorded.hide callables cursors))
    (same : recorded'.callables = recorded.callables) :
    Replays durations times future recorded'
      (recorded'.hide callables (cursors.insert b.stmt (timesAt future b.stmt))) where
  visible := rfl
  callables s := by
    rw [same]
    exact h.callables s
  cursor stmt := by
    by_cases here : b.stmt = stmt
    · subst here
      simp
    · have before := h.cursor stmt
      rw [timesAt_cons, if_neg (by simpa using here)] at before
      simpa [Std.HashMap.getElem?_insert, here] using before
  annotated b' mem := h.annotated b' (List.mem_cons_of_mem b mem)

/-- The next recorded time of a barrier the recording is about to log is the time it logs. -/
theorem Replays.next_time {future : List BarrierSync} {b : BarrierSync} {recorded replayed : Run}
    (h : Replays durations times (b :: future) recorded replayed) (recordedTimes : List Nat) :
    (replayed.replayTimes.get? b.stmt).getD (times.getD b.stmt recordedTimes) =
      b.time :: timesAt future b.stmt := by
  have known : times.contains b.stmt = true := h.annotated b (List.mem_cons_self ..)
  have cursor := h.cursor b.stmt
  rw [timesAt_cons, if_pos (by simp)] at cursor
  rw [← cursor]
  cases replayed.replayTimes.get? b.stmt with
  | some ts => rfl
  | none => simp [Std.HashMap.getD_eq_getD_getElem?, Std.HashMap.mem_iff_contains.mpr known]

variable (reg : Registry) (rate : Float) (label : String)

/-- A barrier replays from the times the recording wrote on it: the replay reads back from
its cursor the very time the recording logged, and logs it in turn. -/
theorem barrier_simulates (stmt : Nat) (range : TextRange) (frames : Option (List Ident))
    (recorded : List Nat) :
    Simulates durations times (Run.barrier ⟨reg, rate, .record⟩ stmt range frames recorded)
      (Run.barrier ⟨reg, rate, .replay label⟩ stmt range frames
        (times.getD stmt recorded)) := by
  unfold Run.barrier
  extract_lets afterR afterP
  have after : ∀ fs, Simulates durations times (afterR fs) (afterP fs) := by
    intro fs
    constructor
    · intro r a r' h
      simp only [afterR, StateT.run_bind, StateT.run_get, pure_bind, StateT.run_modify,
        Run.recordDuration] at h
      cases h
      simp
    · intro rec rep a rec' fresh future h log follows
      obtain ⟨callables, cursors, rfl⟩ := follows.eq_hide
      simp only [afterR, StateT.run_bind, StateT.run_get, pure_bind, StateT.run_modify,
        Run.recordDuration] at h
      cases h
      have one := List.append_cancel_left (log.symm.trans (Array.toList_push ..))
      subst one
      rw [List.singleton_append] at follows
      have next := follows.next_time recorded
      simp only [Run.hide_replayTimes] at next
      simp only [afterP, StateT.run_bind, StateT.run_get, pure_bind, StateT.run_modify,
        Run.recordDuration, Run.hide_replayTimes, next, StateT.run_set, Run.hide_machine,
        ge_iff_le, Nat.le_refl, ↓reduceIte]
      exact ⟨_, rfl, follows.read rfl⟩
  cases frames with
  | none => exact Simulates.get_bind (fun _ => (Simulates.pure _).bind after) fun _ _ _ => rfl
  | some is => exact (Simulates.of_oblivious (Run.resolveFrames_oblivious is)).bind after

end Replay

end PulseCompiler
