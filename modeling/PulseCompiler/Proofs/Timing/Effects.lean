import PulseCompiler.Proofs.Timing.Steps
set_option autoImplicit false

/-!
# What a timed statement does to the clocks

A delay advances every frame it lists by its duration, once for each time the list names the
frame: a frame named twice, directly or through two frame parameters bound to it, moves twice
as far (`Run.delay_clocks`). A play or capture advances its one frame by the samples of its
waveform (`Run.pulse_clocks`), and a recording barrier sets every frame it lists to the latest
of them (`Run.barrier_clocks`). Every other clock stays as it was.

The clocks are read with `FrameClocks.get`; setting a clock changes what `get` reads for that
frame only (`FrameClocks.get_set`), and the effects of the statements follow from it.
-/

namespace PulseCompiler

namespace FrameClocks

variable {c c' : FrameClocks} {f g : SymbolId}

theorem find?_set (t : Nat) (g : SymbolId) :
    (c.set f t).find? g = if g = f then some t else c.find? g := by
  unfold set find? contains
  split
  · rename_i present
    have keys : ((·.1 == g) ∘ fun p : SymbolId × Nat => if p.1 == f then (f, t) else p) =
        (·.1 == g) := by
      funext p
      by_cases hp : p.1 = f <;> simp [hp]
    simp only [List.find?_map, keys, Option.map_map]
    cases found : c.times.find? (·.1 == g) with
    | none =>
      have absent : g ≠ f := by
        rintro rfl
        obtain ⟨p, mem, key⟩ := List.any_eq_true.mp present
        exact List.find?_eq_none.mp found p mem key
      simp [absent]
    | some p =>
      have key : p.1 = g := by simpa using List.find?_some found
      by_cases same : g = f <;> simp [same, key]
  · rename_i absent
    simp only [List.find?_append]
    by_cases same : g = f
    · subst same
      have none : c.times.find? (·.1 == g) = none :=
        List.find?_eq_none.mpr fun p mem key => absent (List.any_eq_true.mpr ⟨p, mem, key⟩)
      simp [none]
    · simp [same, Ne.symm same]

theorem get_set (t : Nat) (g : SymbolId) : (c.set f t).get g = if g = f then t else c.get g := by
  by_cases same : g = f <;> simp [get, find?_set, same]

@[simp] theorem get_set_self (t : Nat) : (c.set f t).get f = t := by
  simp [get_set]

@[simp] theorem get_set_ne (t : Nat) (h : g ≠ f) : (c.set f t).get g = c.get g := by
  simp [get_set, h]

/-- Advancing a frame moves its clock by the samples and no other. -/
theorem get_advance {n start : Nat} (h : c.advance f n = some (start, c')) (g : SymbolId) :
    c'.get g = c.get g + if g = f then n else 0 := by
  rw [(advance_eq h).2]
  by_cases same : g = f
  · subst same
    simp
  · simp [same]

/-- Advancing a list of frames moves each clock by the samples once for every time the list
names its frame. -/
theorem get_advanceEach {fs : List SymbolId} {n : Nat} (h : c.advanceEach fs n = some c')
    (g : SymbolId) : c'.get g = c.get g + n * fs.count g := by
  induction fs generalizing c with
  | nil =>
    simp only [advanceEach, Option.some.injEq] at h
    simp [h]
  | cons f rest ih =>
    obtain ⟨start, c₁, hf, hrest⟩ := advanceEach_cons h
    calc c'.get g = c₁.get g + n * rest.count g := ih hrest
      _ = c.get g + (if g = f then n else 0) + n * rest.count g := by rw [get_advance hf g]
      _ = c.get g + n * (f :: rest).count g := by
        by_cases same : g = f
        · subst same
          simp only [if_true, List.count_cons_self, Nat.mul_add, Nat.mul_one]
          omega
        · simp [same, Ne.symm same]

/-- A frame listed twice moves twice. -/
example : ((({} : FrameClocks).declare 7).advanceEach [7, 7] 32).map (·.get 7) = some 64 := by
  rfl

/-- Synchronizing frames sets the clock of each of them, and of no other, to the time. -/
theorem get_sync (fs : List SymbolId) (t : Nat) (g : SymbolId) :
    (c.sync fs t).get g = if g ∈ fs then t else c.get g := by
  induction fs generalizing c with
  | nil => simp [sync]
  | cons f rest ih =>
    have step : c.sync (f :: rest) t = (c.set f t).sync rest t := rfl
    rw [step, ih, get_set]
    by_cases inRest : g ∈ rest
    · simp [inRest]
    · by_cases same : g = f <;> simp [inRest, same]

end FrameClocks

namespace Run

variable {ctx : RunSetting} {stmt : Nat} {range : TextRange} {r r' : Run} {u : Unit}

/-- A delay advances each frame it lists (all declared frames when it lists none) by its
duration, once for every time the list names the frame after looking through frame
parameters; every other clock stays. -/
theorem delay_clocks {d : Expr} {frames : List Ident}
    (h : (delay ctx stmt range d frames).run r = .ok (u, r')) :
    ∃ samples rounded fs,
      Fold.durationSamples ⟨ctx.registry, ctx.sampleRate, r.timing.env⟩ d =
        .ok (samples, rounded) ∧
      (if frames.isEmpty then some r.timing.clocks.frames else frames.mapM r.timing.frameOf?) =
        some fs ∧
      ∀ g, r'.timing.clocks.get g = r.timing.clocks.get g + samples * fs.count g := by
  obtain ⟨samples, rounded, fs, hs, hfs, hadv, -⟩ := delay_run h
  exact ⟨samples, rounded, fs, hs, hfs, FrameClocks.get_advanceEach hadv⟩

/-- A play or capture advances the frame it names by the samples of its waveform; every other
clock stays. -/
theorem pulse_clocks {kind : TimedKind} {frame : Ident} {waveform : Expr}
    (h : (pulse ctx stmt range kind frame waveform).run r = .ok (u, r')) :
    ∃ f w, r.timing.frameOf? frame = some f ∧
      waveformValue ctx r.timing.env waveform ("#" ++ toString stmt) = .ok w ∧
      ∀ g, r'.timing.clocks.get g = r.timing.clocks.get g + if g = f then w.samples else 0 := by
  obtain ⟨f, w, start, hf, hw, hadv, -⟩ := pulse_run h
  exact ⟨f, w, hf, hw, FrameClocks.get_advance hadv⟩

/-- A recording barrier sets every frame it lists (all declared frames when it lists none) to
the latest of their clocks; every other clock stays. -/
theorem barrier_clocks (record : ctx.mode = .record) {frames : Option (List Ident)}
    {recorded : List Nat} (h : (barrier ctx stmt range frames recorded).run r = .ok (u, r')) :
    ∃ fs, (match frames with
        | none => some r.timing.clocks.frames
        | some is => is.mapM r.timing.frameOf?) = some fs ∧
      ∀ g, r'.timing.clocks.get g =
        if g ∈ fs then r.timing.clocks.latest fs else r.timing.clocks.get g := by
  obtain ⟨fs, hfs, t⟩ := barrier_run record h
  refine ⟨fs, hfs, fun g => ?_⟩
  rw [t]
  exact FrameClocks.get_sync fs _ g

end Run

end PulseCompiler
