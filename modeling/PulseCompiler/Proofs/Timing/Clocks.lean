import PulseCompiler.Proofs.Timing.Scope
set_option autoImplicit false

/-!
# Well-formed frame clocks

Clocks are well formed when their times list exactly the declared frames, in order and each
once. Declaring a frame keeps them so, and so do setting, advancing and synchronizing frames
that have clocks; every run only ever sets such frames.
-/

namespace PulseCompiler

namespace FrameClocks

/-- Advances each of some frames in turn by the same number of samples, failing if a clock
would pass its bound. -/
def advanceEach (c : FrameClocks) (frames : List SymbolId) (samples : Nat) :
    Option FrameClocks :=
  match frames with
  | [] => some c
  | f :: rest => (c.advance f samples).bind fun (_, c') => c'.advanceEach rest samples

/-- The times list exactly the declared frames, in order and each once. -/
def WellFormed (c : FrameClocks) : Prop :=
  c.times.map Prod.fst = c.frames ∧ c.frames.Nodup

variable {c : FrameClocks} {f g : SymbolId}

theorem empty_wellFormed : ({} : FrameClocks).WellFormed :=
  ⟨rfl, List.nodup_nil⟩

theorem contains_iff_mem_times : c.contains f = true ↔ f ∈ c.times.map Prod.fst := by
  simp [contains]

theorem contains_iff_mem (h : c.WellFormed) : c.contains f = true ↔ f ∈ c.frames := by
  rw [contains_iff_mem_times, h.1]

theorem declare_wellFormed (h : c.WellFormed) : (c.declare f).WellFormed := by
  unfold declare
  split
  · exact h
  · rename_i absent
    rw [Bool.not_eq_true, ← Bool.not_eq_true, contains_iff_mem h] at absent
    exact ⟨by simp [h.1], h.2.append (List.nodup_singleton f) (by simpa using absent)⟩

@[simp] theorem set_frames (t : Nat) : (c.set f t).frames = c.frames := by
  unfold set
  split <;> rfl

theorem set_times_keys (hf : c.contains f = true) (t : Nat) :
    (c.set f t).times.map Prod.fst = c.times.map Prod.fst := by
  simp only [set, hf, ↓reduceIte, List.map_map]
  apply List.map_congr_left
  intro p _
  by_cases hp : p.1 = f <;> simp [hp]

theorem set_wellFormed (h : c.WellFormed) (hf : c.contains f = true) (t : Nat) :
    (c.set f t).WellFormed :=
  ⟨by rw [set_times_keys hf, set_frames, h.1], by rw [set_frames]; exact h.2⟩

theorem contains_set (hf : c.contains f = true) (t : Nat) :
    (c.set f t).contains g = c.contains g := by
  rw [Bool.eq_iff_iff, contains_iff_mem_times, contains_iff_mem_times, set_times_keys hf]

theorem advance_eq {n start : Nat} {c' : FrameClocks} (h : c.advance f n = some (start, c')) :
    start = c.get f ∧ c' = c.set f (c.get f + n) := by
  simp only [advance] at h
  split at h
  · cases h
    exact ⟨rfl, rfl⟩
  · cases h

theorem advance_wellFormed (h : c.WellFormed) (hf : c.contains f = true) {n start : Nat}
    {c' : FrameClocks} (ha : c.advance f n = some (start, c')) : c'.WellFormed := by
  rw [(advance_eq ha).2]
  exact set_wellFormed h hf _

theorem contains_advance (hf : c.contains f = true) {n start : Nat} {c' : FrameClocks}
    (ha : c.advance f n = some (start, c')) : c'.contains g = c.contains g := by
  rw [(advance_eq ha).2]
  exact contains_set hf _

@[simp] theorem advance_frames {n start : Nat} {c' : FrameClocks}
    (ha : c.advance f n = some (start, c')) : c'.frames = c.frames := by
  rw [(advance_eq ha).2, set_frames]

theorem sync_wellFormed {fs : List SymbolId} (h : c.WellFormed)
    (hfs : ∀ f ∈ fs, c.contains f = true) (t : Nat) : (c.sync fs t).WellFormed := by
  induction fs generalizing c with
  | nil => exact h
  | cons f rest ih =>
    have hf := hfs f List.mem_cons_self
    exact ih (set_wellFormed h hf t) fun g hg => by
      rw [contains_set hf]
      exact hfs g (List.mem_cons_of_mem _ hg)

theorem advanceEach_cons {n : Nat} {fs : List SymbolId} {c' : FrameClocks}
    (ha : c.advanceEach (f :: fs) n = some c') :
    ∃ start c₁, c.advance f n = some (start, c₁) ∧ c₁.advanceEach fs n = some c' := by
  simp only [advanceEach, Option.bind_eq_some_iff] at ha
  obtain ⟨⟨start, c₁⟩, hf, rest⟩ := ha
  exact ⟨start, c₁, hf, rest⟩

/-- Advancing frames that have clocks keeps the clocks well formed, over the same frames. -/
theorem advanceEach_wellFormed {fs : List SymbolId} {n : Nat} {c' : FrameClocks}
    (h : c.WellFormed) (hfs : ∀ f ∈ fs, c.contains f = true)
    (ha : c.advanceEach fs n = some c') :
    c'.WellFormed ∧ c'.frames = c.frames ∧ ∀ g, c'.contains g = c.contains g := by
  induction fs generalizing c with
  | nil =>
    simp only [advanceEach, Option.some.injEq] at ha
    subst ha
    exact ⟨h, rfl, fun _ => rfl⟩
  | cons f rest ih =>
    obtain ⟨start, c₁, hf, hrest⟩ := advanceEach_cons ha
    have hc := hfs f List.mem_cons_self
    have kept : ∀ g, c₁.contains g = c.contains g := fun g => contains_advance hc hf
    obtain ⟨wf, frames, contains⟩ := ih (advance_wellFormed h hc hf)
      (fun g hg => (kept g).trans (hfs g (List.mem_cons_of_mem _ hg))) hrest
    exact ⟨wf, frames.trans (advance_frames hf), fun g => (contains g).trans (kept g)⟩

@[simp] theorem sync_frames (fs : List SymbolId) (t : Nat) : (c.sync fs t).frames = c.frames := by
  induction fs generalizing c with
  | nil => rfl
  | cons f rest ih => exact (@ih (c.set f t)).trans (set_frames t)

end FrameClocks

end PulseCompiler
