import PulseCompiler.CommandTable
import PulseCompiler.Proofs.Timing.Scope
import Mathlib.Data.List.Induction
set_option autoImplicit false

/-!
# Command tables are content-addressed

Assigning table entries visits the waveforms of a program in pre-order: the values each waveform
declaration took, then, for each play or capture, the distinct waveforms it used
(`ClockReport.supplied`). The table it builds depends on that sequence alone: its entries are the
sequence's distinct keys in order of first occurrence, numbered from zero, each with the samples
of its first waveform (`CommandTable.ofSupplied`). A key already in the table keeps its entry and
its index, so the index a declaration gets when its first value is inserted is the index of that
value's key in the finished table.

The capacity is checked before a new entry is added, so a sequence with more distinct keys than
the capacity fails at the first waveform of the key one past it, with the range of the statement
that brought it.

Main statement: `Program.assignResources_spec`.
-/

namespace PulseCompiler

/-! ### What a program brings to its table -/

namespace ClockReport

/-- The distinct waveforms a report records a statement playing, in the order it first played
them. -/
def playedAt (R : ClockReport) (stmt : Nat) : List WaveformInfo :=
  ((R.waveforms.filter (·.stmt == stmt)).map (·.waveform)).eraseDups

/-- The waveforms a statement brings to its program's command table, each with the statement's
range: the values a waveform declaration took, the distinct waveforms a play or capture used. -/
def supplies (R : ClockReport) (s : Stmt) : List (WaveformInfo × TextRange) :=
  match s.kind with
  | .waveform .. => ((R.declaredWaveforms.lookup s.id).getD []).map (·, s.range)
  | .play .. | .capture .. => (R.playedAt s.id).map (·, s.range)
  | _ => []

/-- The waveforms a program brings to its command table, in pre-order. -/
def supplied (R : ClockReport) (p : Program) : List (WaveformInfo × TextRange) :=
  (Stmt.walkList p).flatMap R.supplies

end ClockReport

/-- The distinct keys of a sequence of waveforms, in order of first occurrence. -/
def CommandTable.keysOf (ws : List (WaveformInfo × TextRange)) : List String :=
  (ws.map (·.1.key)).eraseDups

theorem playedWaveforms_get (R : ClockReport) (stmt : Nat) :
    ((playedWaveforms R)[stmt]?).getD [] = R.playedAt stmt := by
  obtain ⟨c, f, b, ev, evs, d, l, w⟩ := R
  simp only [ClockReport.playedAt]
  induction evs using List.reverseRecOn generalizing stmt with
  | nil => simp [playedWaveforms]
  | append_singleton evs e ih =>
    set acc := playedWaveforms ⟨c, f, b, ev, evs, d, l, w⟩ with hacc
    have step : playedWaveforms ⟨c, f, b, ev, evs ++ [e], d, l, w⟩ =
        if (acc[e.stmt]?.getD []).contains e.waveform then acc
        else acc.insert e.stmt (acc[e.stmt]?.getD [] ++ [e.waveform]) := by
      simp only [hacc, playedWaveforms, List.foldl_append, List.foldl_cons, List.foldl_nil,
        Std.HashMap.get?_eq_getElem?]
    rw [step]
    simp only [List.filter_append, List.filter_cons, List.filter_nil, List.map_append]
    by_cases same : e.stmt = stmt
    · subst same
      rw [ih e.stmt]
      split
      · next seen =>
        have old : e.waveform ∈ (evs.filter (·.stmt == e.stmt)).map (·.waveform) := by
          simpa using seen
        simp [ih, List.eraseDups_append, List.removeAll, old]
      · next fresh =>
        have new : e.waveform ∉ (evs.filter (·.stmt == e.stmt)).map (·.waveform) := by
          simpa using fresh
        simp [List.eraseDups_append, List.removeAll, new, List.eraseDups_cons]
    · have other : (e.stmt == stmt) = false := beq_false_of_ne same
      split <;> simp [other, ih, Std.HashMap.getElem?_insert]

/-! ### The table a sequence fills -/

namespace CommandTable

/-- The samples of the first waveform of a key in a sequence. -/
def firstSamples (ws : List (WaveformInfo × TextRange)) (key : String) : Nat :=
  ((ws.find? (·.1.key == key)).map (·.1.samples)).getD 0

/-- The table a sequence of waveforms fills: one entry for each distinct key, in order of first
occurrence and numbered from zero, with the samples of the key's first waveform. -/
def ofSupplied (capacity : Nat) (ws : List (WaveformInfo × TextRange)) : CommandTable :=
  ⟨capacity, ((keysOf ws).mapIdx fun i key => ⟨i, key, firstSamples ws key⟩).toArray⟩

variable {ws : List (WaveformInfo × TextRange)} {x : WaveformInfo × TextRange} {key : String}

theorem mem_keysOf : key ∈ keysOf ws ↔ key ∈ ws.map (·.1.key) := List.mem_eraseDups

theorem keysOf_append (ws xs : List (WaveformInfo × TextRange)) :
    keysOf (ws ++ xs) = keysOf ws ++ ((xs.map (·.1.key)).removeAll (ws.map (·.1.key))).eraseDups := by
  simp only [keysOf, List.map_append, List.eraseDups_append]

theorem keysOf_append_of_mem (old : x.1.key ∈ ws.map (·.1.key)) :
    keysOf (ws ++ [x]) = keysOf ws := by
  simp [keysOf_append, List.removeAll, old]

theorem keysOf_append_of_not_mem (new : x.1.key ∉ ws.map (·.1.key)) :
    keysOf (ws ++ [x]) = keysOf ws ++ [x.1.key] := by
  simp [keysOf_append, List.removeAll, List.eraseDups_cons, new]

theorem firstSamples_append_of_mem (old : key ∈ ws.map (·.1.key)) :
    firstSamples (ws ++ [x]) key = firstSamples ws key := by
  obtain ⟨y, hy, rfl⟩ := List.mem_map.mp old
  obtain ⟨z, hz⟩ := Option.isSome_iff_exists.mp
    (List.find?_isSome.mpr ⟨y, hy, by simp⟩ : (ws.find? (·.1.key == y.1.key)).isSome)
  simp [firstSamples, List.find?_append, hz]

theorem firstSamples_append_of_not_mem (new : x.1.key ∉ ws.map (·.1.key)) :
    firstSamples (ws ++ [x]) x.1.key = x.1.samples := by
  have none : ws.find? (·.1.key == x.1.key) = none := by
    rw [List.find?_eq_none]
    intro y hy same
    exact new (List.mem_map.mpr ⟨y, hy, by simpa using same⟩)
  simp [firstSamples, List.find?_append, none]

@[simp] theorem ofSupplied_capacity (k : Nat) (ws : List (WaveformInfo × TextRange)) :
    (ofSupplied k ws).capacity = k := rfl

@[simp] theorem ofSupplied_size (k : Nat) (ws : List (WaveformInfo × TextRange)) :
    (ofSupplied k ws).size = (keysOf ws).length := by
  simp [ofSupplied, size]

theorem ofSupplied_nil (k : Nat) : ofSupplied k [] = empty k := rfl

/-- A waveform whose key the sequence already has leaves its table as it was. -/
theorem ofSupplied_append_of_mem (k : Nat) (old : x.1.key ∈ ws.map (·.1.key)) :
    ofSupplied k (ws ++ [x]) = ofSupplied k ws := by
  simp only [ofSupplied, keysOf_append_of_mem old]
  congr 2
  rw [List.mapIdx_eq_mapIdx_iff]
  intro i hi
  rw [firstSamples_append_of_mem (mem_keysOf.mp (List.getElem_mem hi))]

/-- A waveform with a new key adds an entry for it, numbered next. -/
theorem ofSupplied_append_of_not_mem (k : Nat) (new : x.1.key ∉ ws.map (·.1.key)) :
    (ofSupplied k (ws ++ [x])).entries =
      (ofSupplied k ws).entries.push ⟨(keysOf ws).length, x.1.key, x.1.samples⟩ := by
  simp only [ofSupplied, keysOf_append_of_not_mem new, List.mapIdx_concat,
    firstSamples_append_of_not_mem new, List.push_toArray]
  congr 2
  rw [List.mapIdx_eq_mapIdx_iff]
  intro i hi
  rw [firstSamples_append_of_mem (mem_keysOf.mp (List.getElem_mem hi))]

/-- Looking a key up among entries numbered by position finds the position of the key. -/
theorem find?_mapIdx (f : Nat → String → CommandEntry) (keyed : ∀ i k, (f i k).key = k) :
    ∀ keys : List String,
      ((keys.mapIdx f).find? (·.key == key)).map (·.index) =
        (keys.idxOf? key).map fun i => (f i key).index
  | [] => rfl
  | k :: rest => by
    rw [List.mapIdx_cons, List.find?_cons, List.idxOf?_cons, keyed]
    by_cases same : k = key
    · subst same
      simp
    · have other : (k == key) = false := beq_false_of_ne same
      have ih := find?_mapIdx (fun i => f (i + 1)) (fun i => keyed (i + 1)) rest
      simp only [other, Bool.false_eq_true, if_false, Option.map_map, Function.comp_def]
      exact ih

theorem get?_ofSupplied (k : Nat) (ws : List (WaveformInfo × TextRange)) (key : String) :
    (ofSupplied k ws).get? key = (keysOf ws).idxOf? key := by
  simp only [get?, ofSupplied, List.find?_toArray]
  rw [find?_mapIdx _ (fun _ _ => rfl)]
  simp

private theorem eraseDups_nodup : ∀ l : List String, l.eraseDups.Nodup
  | [] => List.nodup_nil
  | a :: as => by
    rw [List.eraseDups_cons]
    have shorter : (as.filter fun b => !b == a).length < as.length + 1 :=
      Nat.lt_succ_of_le (List.length_filter_le _ _)
    refine List.nodup_cons.mpr ⟨?_, eraseDups_nodup _⟩
    simp
termination_by l => l.length

theorem keysOf_nodup (ws : List (WaveformInfo × TextRange)) : (keysOf ws).Nodup :=
  eraseDups_nodup _

/-- Inserting into the table of a sequence that fits gives the table of the sequence one waveform
longer, or, when that waveform brings one key too many, the capacity error at its range. -/
theorem insert_ofSupplied {k : Nat} (fits : k ≤ indexLimit) (room : (keysOf ws).length ≤ k)
    (w : WaveformInfo) (r : TextRange) :
    ((ofSupplied k ws).insert w r).map Prod.snd =
      if (keysOf (ws ++ [(w, r)])).length ≤ k then .ok (ofSupplied k (ws ++ [(w, r)]))
      else .error ⟨.tableFull k, r⟩ := by
  by_cases old : w.key ∈ ws.map (·.1.key)
  · obtain ⟨i, found⟩ := Option.isSome_iff_exists.mp
      (List.isSome_idxOf?.mpr (mem_keysOf.mpr old) : ((keysOf ws).idxOf? w.key).isSome)
    have same := keysOf_append_of_mem (x := (w, r)) old
    rw [insert, get?_ofSupplied, found, same, if_pos room, ofSupplied_append_of_mem k old]
    rfl
  · have absent : (ofSupplied k ws).get? w.key = none := by
      rw [get?_ofSupplied, List.idxOf?_eq_none_iff, mem_keysOf]
      exact old
    rw [insert, absent, keysOf_append_of_not_mem (x := (w, r)) old, List.length_append,
      List.length_singleton, ofSupplied_size, ofSupplied_capacity]
    by_cases full : (keysOf ws).length + 1 ≤ k
    · have open_ : ¬((keysOf ws).length ≥ k || (keysOf ws).length ≥ indexLimit) := by
        simp only [Bool.or_eq_true, decide_eq_true_eq, not_or]
        omega
      rw [if_neg open_, if_pos full]
      simp only [Except.map]
      congr
      exact (ofSupplied_append_of_not_mem k (x := (w, r)) old).symm
    · have shut : (keysOf ws).length ≥ k || (keysOf ws).length ≥ indexLimit := by
        simp only [Bool.or_eq_true, decide_eq_true_eq]
        omega
      rw [if_pos shut, if_neg full]
      rfl

theorem ofSupplied_entries_toList (k : Nat) (ws : List (WaveformInfo × TextRange)) :
    (ofSupplied k ws).entries.toList =
      (keysOf ws).mapIdx fun i key => ⟨i, key, firstSamples ws key⟩ := rfl

@[simp] theorem ofSupplied_entries_size (k : Nat) (ws : List (WaveformInfo × TextRange)) :
    (ofSupplied k ws).entries.size = (keysOf ws).length := by
  simp [ofSupplied]

theorem ofSupplied_getElem (k : Nat) (ws : List (WaveformInfo × TextRange)) {i : Nat}
    (h : i < (ofSupplied k ws).entries.size) (hi : i < (keysOf ws).length) :
    (ofSupplied k ws).entries[i] = ⟨i, (keysOf ws)[i], firstSamples ws (keysOf ws)[i]⟩ := by
  simp [ofSupplied]

/-- The table of a sequence holds its distinct keys in order of first occurrence. -/
theorem ofSupplied_keys (k : Nat) (ws : List (WaveformInfo × TextRange)) :
    (ofSupplied k ws).entries.toList.map (·.key) = keysOf ws := by
  rw [ofSupplied_entries_toList]
  apply List.ext_getElem (by simp)
  intro i _ _
  simp

/-- Entry `i` of the table of a sequence is numbered `i` and holds the samples of the first
waveform of its key. -/
theorem ofSupplied_entry (k : Nat) (ws : List (WaveformInfo × TextRange)) (i : Nat)
    (h : i < (ofSupplied k ws).entries.size) :
    (ofSupplied k ws).entries[i].index = i ∧
      (ws.find? (·.1.key == (ofSupplied k ws).entries[i].key)).map (·.1.samples) =
        some (ofSupplied k ws).entries[i].samples := by
  have hi : i < (keysOf ws).length := by simpa using h
  rw [ofSupplied_getElem k ws h hi]
  refine ⟨rfl, ?_⟩
  have supplied : (keysOf ws)[i] ∈ ws.map (·.1.key) := mem_keysOf.mp (List.getElem_mem hi)
  obtain ⟨y, hy, same⟩ := List.mem_map.mp supplied
  obtain ⟨z, hz⟩ := Option.isSome_iff_exists.mp
    (List.find?_isSome.mpr ⟨y, hy, by simp [same]⟩ :
      (ws.find? (·.1.key == (keysOf ws)[i])).isSome)
  simp [firstSamples, hz]

/-- A key finds entry `i` of the table of a sequence exactly when it is that entry's key. -/
theorem get?_ofSupplied_eq_some_iff (k : Nat) (ws : List (WaveformInfo × TextRange))
    (key : String) (i : Nat) :
    (ofSupplied k ws).get? key = some i ↔
      ∃ h : i < (ofSupplied k ws).entries.size, (ofSupplied k ws).entries[i].key = key := by
  rw [get?_ofSupplied, List.idxOf?_eq_some_iff]
  constructor
  · rintro ⟨hi, found, _⟩
    have h : i < (ofSupplied k ws).entries.size := by simpa using hi
    exact ⟨h, by rw [ofSupplied_getElem k ws h hi]; exact found⟩
  · rintro ⟨h, found⟩
    have hi : i < (keysOf ws).length := by simpa using h
    rw [ofSupplied_getElem k ws h hi] at found
    refine ⟨hi, found, fun j earlier same => ?_⟩
    have := (List.Nodup.getElem_inj_iff (keysOf_nodup ws)).mp (same.trans found.symm)
    omega

/-- A key that a sequence does not supply finds nothing in its table. -/
theorem get?_ofSupplied_eq_none (k : Nat) (ws : List (WaveformInfo × TextRange)) {key : String}
    (absent : key ∉ keysOf ws) : (ofSupplied k ws).get? key = none := by
  rw [get?_ofSupplied, List.idxOf?_eq_none_iff]
  exact absent

/-- Inserts waveforms in order, each at its own range, keeping the table. -/
def insertSeq (t : CommandTable) (ws : List (WaveformInfo × TextRange)) :
    Except SemanticError CommandTable :=
  ws.foldlM (fun t x => (t.insert x.1 x.2).map Prod.snd) t

@[simp] theorem insertSeq_nil (t : CommandTable) : insertSeq t [] = .ok t := rfl

theorem insertSeq_cons (t : CommandTable) (x : WaveformInfo × TextRange)
    (xs : List (WaveformInfo × TextRange)) :
    insertSeq t (x :: xs) = (t.insert x.1 x.2).map Prod.snd >>= fun t => insertSeq t xs := rfl

theorem insertSeq_append (t : CommandTable) (xs ys : List (WaveformInfo × TextRange)) :
    insertSeq t (xs ++ ys) = insertSeq t xs >>= fun t => insertSeq t ys := by
  simp only [insertSeq, List.foldlM_append]

/-- The keys of a sequence come first among the keys of a longer one. -/
theorem length_keysOf_le_append (ws xs : List (WaveformInfo × TextRange)) :
    (keysOf ws).length ≤ (keysOf (ws ++ xs)).length := by
  rw [keysOf_append, List.length_append]
  exact Nat.le_add_right _ _

/-- A waveform whose key is one too many is the first waveform of the key one past the
capacity. -/
theorem overflow_at {k : Nat} (room : (keysOf ws).length ≤ k)
    (beyond : k < (keysOf (ws ++ [x])).length) (xs : List (WaveformInfo × TextRange)) :
    ((keysOf (ws ++ x :: xs))[k]?).bind (fun key => (ws ++ x :: xs).find? (·.1.key == key)) =
      some x := by
  have new : x.1.key ∉ ws.map (·.1.key) := by
    intro old
    rw [keysOf_append_of_mem old] at beyond
    omega
  have grown := keysOf_append_of_not_mem new
  have last : (keysOf ws).length = k := by
    rw [grown, List.length_append, List.length_singleton] at beyond
    omega
  have absent : ws.find? (·.1.key == x.1.key) = none := by
    rw [List.find?_eq_none]
    intro y hy same
    exact new (List.mem_map.mpr ⟨y, hy, by simpa using same⟩)
  have split : ws ++ x :: xs = (ws ++ [x]) ++ xs := by simp
  rw [split, keysOf_append, grown, List.append_assoc, List.getElem?_append_right (by omega),
    last, Nat.sub_self]
  simp [List.find?_append, absent]

/-- Inserting a sequence into the table of a sequence that fits gives the table of the two
together when their keys fit, and otherwise the capacity error at the first waveform of the key
one past the capacity. -/
theorem insertSeq_ofSupplied {k : Nat} (fits : k ≤ indexLimit) :
    ∀ (xs ws : List (WaveformInfo × TextRange)), (keysOf ws).length ≤ k →
      ((keysOf (ws ++ xs)).length ≤ k → insertSeq (ofSupplied k ws) xs = .ok (ofSupplied k (ws ++ xs))) ∧
      (k < (keysOf (ws ++ xs)).length → ∃ w r,
        ((keysOf (ws ++ xs))[k]?).bind (fun key => (ws ++ xs).find? (·.1.key == key)) = some (w, r) ∧
        insertSeq (ofSupplied k ws) xs = .error ⟨.tableFull k, r⟩)
  | [], ws, room => by
    rw [List.append_nil]
    exact ⟨fun _ => rfl, fun beyond => absurd room (Nat.not_le_of_lt beyond)⟩
  | x :: xs, ws, room => by
    have split : ws ++ x :: xs = (ws ++ [x]) ++ xs := by simp
    rw [insertSeq_cons, insert_ofSupplied fits room]
    split
    · next fitting =>
      rw [split]
      exact insertSeq_ofSupplied fits xs (ws ++ [x]) fitting
    · next beyond =>
      have beyond : k < (keysOf (ws ++ [x])).length := Nat.lt_of_not_le beyond
      refine ⟨fun within => ?_, fun _ => ⟨x.1, x.2, overflow_at room beyond xs, rfl⟩⟩
      have := length_keysOf_le_append (ws ++ [x]) xs
      rw [split] at within
      omega

end CommandTable

/-! ### Assignment inserts what the program supplies -/

/-- What assigning table entries reads of a report. -/
def ClockReport.waveformUse (R : ClockReport) : WaveformUse :=
  ⟨R.declaredWaveforms, playedWaveforms R⟩

theorem CommandTable.insertAll_table (t : CommandTable) (ws : List WaveformInfo) (range : TextRange) :
    (t.insertAll ws range).map Prod.snd = insertSeq t (ws.map (·, range)) := by
  unfold CommandTable.insertAll
  generalize (none : Option Nat) = first
  induction ws generalizing first t with
  | nil => rfl
  | cons w ws ih =>
    rw [List.foldlM_cons, List.map_cons, insertSeq_cons]
    cases t.insert w range with
    | error e => rfl
    | ok p => exact ih p.2 _

theorem ClockReport.supplied_cons (R : ClockReport) (s : Stmt) (rest : List Stmt) :
    R.supplied (s :: rest) =
      R.supplies s ++ s.kind.walkBlocks.flatMap R.supplies ++ R.supplied rest := by
  simp [ClockReport.supplied]

theorem ClockReport.supplied_singleton (R : ClockReport) (s : Stmt) :
    R.supplied [s] = R.supplies s ++ s.kind.walkBlocks.flatMap R.supplies := by
  simp [ClockReport.supplied]

variable (R : ClockReport)

mutual
/-- Assigning entries for a statement inserts what it supplies, in order. -/
theorem Stmt.assign_table : ∀ (t : CommandTable) (s : Stmt),
    (Stmt.assign R.waveformUse t s).map Prod.snd = CommandTable.insertSeq t (R.supplied [s])
  | t, .mk id range d kind => by
    have blocks := StmtKind.assignBlocks_table t kind
    rw [ClockReport.supplied_singleton]
    cases kind
    case waveform name value ti =>
      simp only [Stmt.assign, ClockReport.supplies, Stmt.kind_mk, StmtKind.walkBlocks,
        List.flatMap_nil, List.append_nil, ClockReport.waveformUse, Stmt.id_mk, Stmt.range]
      cases R.declaredWaveforms.lookup id with
      | none => rfl
      | some ws =>
        dsimp only
        rw [Option.getD_some, ← CommandTable.insertAll_table]
        cases t.insertAll ws range <;> rfl
    case play f w | capture f w =>
      simp only [Stmt.assign, ClockReport.supplies, Stmt.kind_mk, StmtKind.walkBlocks,
        List.flatMap_nil, List.append_nil, ClockReport.waveformUse, Stmt.id_mk, Stmt.range]
      rw [Std.HashMap.get?_eq_getElem?, playedWaveforms_get, ← CommandTable.insertAll_table]
      cases t.insertAll (R.playedAt id) range <;> rfl
    all_goals
      simp only [Stmt.assign, ClockReport.supplies, Stmt.kind_mk, List.nil_append]
      rw [← blocks]
      cases StmtKind.assignBlocks R.waveformUse t _ <;> rfl

/-- Assigning entries for the blocks of a statement kind inserts what they supply, in order. -/
theorem StmtKind.assignBlocks_table : ∀ (t : CommandTable) (k : StmtKind),
    (StmtKind.assignBlocks R.waveformUse t k).map Prod.snd =
      CommandTable.insertSeq t (k.walkBlocks.flatMap R.supplies)
  | t, .subroutine _ _ _ b | t, .defcal _ _ _ _ b | t, .cal b | t, .forLoop _ _ _ b
  | t, .whileLoop _ b => by
    simp only [StmtKind.assignBlocks, StmtKind.walkBlocks]
    rw [← ClockReport.supplied, ← Stmt.assignList_table t b]
    cases Stmt.assignList R.waveformUse t b <;> rfl
  | t, .branch _ th (some e) => by
    simp only [StmtKind.assignBlocks, StmtKind.walkBlocks, List.flatMap_append]
    rw [CommandTable.insertSeq_append, ← ClockReport.supplied, ← ClockReport.supplied,
      ← Stmt.assignList_table t th]
    cases Stmt.assignList R.waveformUse t th with
    | error e => rfl
    | ok p =>
      obtain ⟨th', t'⟩ := p
      dsimp only [bind, Except.bind, Except.map]
      rw [← Stmt.assignList_table t' e]
      cases Stmt.assignList R.waveformUse t' e <;> rfl
  | t, .branch _ th none => by
    simp only [StmtKind.assignBlocks, StmtKind.walkBlocks, List.append_nil]
    rw [← ClockReport.supplied, ← Stmt.assignList_table t th]
    cases Stmt.assignList R.waveformUse t th <;> rfl
  | _, .grammar _ | _, .port _ | _, .frame .. | _, .waveform .. | _, .declare .. | _, .input ..
  | _, .output .. | _, .gate .. | _, .expr _ | _, .assign .. | _, .ret _ | _, .delay ..
  | _, .play .. | _, .capture .. | _, .barrier .. | _, .update .. => rfl

/-- Assigning entries for a block inserts what it supplies, in order. -/
theorem Stmt.assignList_table : ∀ (t : CommandTable) (b : List Stmt),
    (Stmt.assignList R.waveformUse t b).map Prod.snd = CommandTable.insertSeq t (R.supplied b)
  | t, [] => rfl
  | t, s :: rest => by
    have head := Stmt.assign_table t s
    rw [ClockReport.supplied_cons, ← ClockReport.supplied_singleton, CommandTable.insertSeq_append,
      ← head]
    simp only [Stmt.assignList]
    cases Stmt.assign R.waveformUse t s with
    | error e => rfl
    | ok p =>
      obtain ⟨s', t'⟩ := p
      dsimp only [bind, Except.bind, Except.map]
      rw [← Stmt.assignList_table t' rest]
      cases Stmt.assignList R.waveformUse t' rest <;> rfl
end

/-! ### Indices only grow -/

namespace CommandTable

/-- Every key of the first table keeps its index in the second. -/
def Extends (t t' : CommandTable) : Prop :=
  ∀ key i, t.get? key = some i → t'.get? key = some i

theorem Extends.refl (t : CommandTable) : t.Extends t := fun _ _ h => h

theorem Extends.trans {t₁ t₂ t₃ : CommandTable} (h₁ : t₁.Extends t₂) (h₂ : t₂.Extends t₃) :
    t₁.Extends t₃ :=
  fun key i h => h₂ key i (h₁ key i h)

/-- An insertion keeps every index and gives the inserted key the index it returns. -/
theorem insert_ok {t t' : CommandTable} {w : WaveformInfo} {r : TextRange} {i : Nat}
    (h : t.insert w r = .ok (i, t')) : t.Extends t' ∧ t'.get? w.key = some i := by
  unfold insert at h
  cases found : t.get? w.key with
  | some j =>
    rw [found] at h
    cases h
    exact ⟨Extends.refl t, found⟩
  | none =>
    rw [found] at h
    dsimp only at h
    split at h
    · cases h
    · cases h
      have missing : t.entries.find? (·.key == w.key) = none := Option.map_eq_none_iff.mp found
      refine ⟨fun key j old => ?_, ?_⟩
      · obtain ⟨e, he, rfl⟩ := Option.map_eq_some_iff.mp old
        simp [get?, Array.find?_push, he]
      · simp [get?, Array.find?_push, missing, size]

theorem insertSeq_extends : ∀ {t t' : CommandTable} (xs : List (WaveformInfo × TextRange)),
    insertSeq t xs = .ok t' → t.Extends t'
  | t, t', [], h => by
    cases h
    exact Extends.refl t
  | t, t', x :: xs, h => by
    rw [insertSeq_cons] at h
    obtain ⟨t₁, step, rest⟩ := except_bind_eq_ok.mp h
    obtain ⟨⟨i, t₂⟩, inserted, rfl⟩ := except_map_eq_ok.mp step
    exact (insert_ok inserted).1.trans (insertSeq_extends xs rest)

/-- Inserting the values of a declaration keeps every index, and the index it returns is the one
its first value's key has in every table that extends the result. -/
theorem insertAll_ok {t t₁ : CommandTable} {ws : List WaveformInfo} {r : TextRange}
    {first : Option Nat} (h : t.insertAll ws r = .ok (first, t₁)) :
    t.Extends t₁ ∧ ∀ t', t₁.Extends t' → first = ws.head?.bind fun w => t'.get? w.key := by
  unfold insertAll at h
  change t.Extends t₁ ∧ ∀ t', t₁.Extends t' →
    first = (none : Option Nat).orElse fun _ => ws.head?.bind fun w => t'.get? w.key
  generalize (none : Option Nat) = found at h ⊢
  revert h
  induction ws generalizing found t with
  | nil =>
    intro h
    cases h
    exact ⟨Extends.refl _, fun t' _ => by cases first <;> rfl⟩
  | cons w ws ih =>
    intro h
    rw [List.foldlM_cons] at h
    obtain ⟨⟨found', t₂⟩, step, rest⟩ := except_bind_eq_ok.mp h
    obtain ⟨⟨i, t₃⟩, inserted, same⟩ := except_bind_eq_ok.mp step
    cases same
    obtain ⟨grown, first_eq⟩ := ih _ rest
    obtain ⟨kept, indexed⟩ := insert_ok inserted
    refine ⟨kept.trans grown, fun t' later => ?_⟩
    rw [first_eq t' later, List.head?_cons, Option.bind_some, (grown.trans later) _ _ indexed]
    cases found <;> rfl

end CommandTable

/-! ### What assignment writes into the program -/

mutual
/-- A statement with the command table index of each waveform declaration in it set where
`index` gives one for the declaration's number. -/
def Stmt.withTableIndex (index : Nat → Option Nat) : Stmt → Stmt
  | .mk id range d kind => .mk id range d (StmtKind.withTableIndex index id kind)

/-- A statement kind with the table index of the waveform declarations in it set by `index`. -/
def StmtKind.withTableIndex (index : Nat → Option Nat) (id : Nat) : StmtKind → StmtKind
  | .waveform n v ti => .waveform n v ((index id).orElse fun _ => ti)
  | .subroutine n ps r b => .subroutine n ps r (Stmt.withTableIndexList index b)
  | .defcal n ps qs r b => .defcal n ps qs r (Stmt.withTableIndexList index b)
  | .cal b => .cal (Stmt.withTableIndexList index b)
  | .forLoop v ty it b => .forLoop v ty it (Stmt.withTableIndexList index b)
  | .whileLoop c b => .whileLoop c (Stmt.withTableIndexList index b)
  | .branch c t (some e) =>
    .branch c (Stmt.withTableIndexList index t) (some (Stmt.withTableIndexList index e))
  | .branch c t none => .branch c (Stmt.withTableIndexList index t) none
  | k => k

/-- A block with the table index of the waveform declarations in it set by `index`. -/
def Stmt.withTableIndexList (index : Nat → Option Nat) : List Stmt → List Stmt
  | [] => []
  | s :: rest => Stmt.withTableIndex index s :: Stmt.withTableIndexList index rest
end

/-- The index a table gives a waveform declaration with recorded values: that of its first
value's key. -/
def ClockReport.firstIndex (R : ClockReport) (t : CommandTable) (id : Nat) : Option Nat :=
  ((R.declaredWaveforms.lookup id).bind List.head?).bind fun w => t.get? w.key

theorem Stmt.assignList_extends {t t₁ : CommandTable} {b b' : List Stmt}
    (h : Stmt.assignList R.waveformUse t b = .ok (b', t₁)) : t.Extends t₁ :=
  CommandTable.insertSeq_extends _ (by rw [← Stmt.assignList_table, h]; rfl)

mutual
/-- A statement after assignment is the statement with each waveform declaration indexed by
its first value's key, in the table assignment goes on to finish. -/
theorem Stmt.assign_program : ∀ (t : CommandTable) (s : Stmt) {s' : Stmt} {t₁ : CommandTable},
    Stmt.assign R.waveformUse t s = .ok (s', t₁) → ∀ t', t₁.Extends t' →
      s' = s.withTableIndex (R.firstIndex t')
  | t, .mk id range d kind, s', t₁, h, t', later => by
    cases kind
    case waveform name value ti =>
      simp only [Stmt.assign, ClockReport.waveformUse] at h
      simp only [Stmt.withTableIndex, StmtKind.withTableIndex, ClockReport.firstIndex]
      cases found : R.declaredWaveforms.lookup id with
      | none =>
        rw [found] at h
        cases h
        rfl
      | some ws =>
        rw [found] at h
        obtain ⟨⟨first, t₂⟩, inserted, h⟩ := except_bind_eq_ok.mp h
        cases h
        rw [(CommandTable.insertAll_ok inserted).2 t' later]
        rfl
    case play | capture =>
      simp only [Stmt.assign] at h
      obtain ⟨_, _, h⟩ := except_bind_eq_ok.mp h
      cases h
      rfl
    case subroutine _ _ _ b | defcal _ _ _ _ b | cal b | forLoop _ _ _ b | whileLoop _ b =>
      simp only [Stmt.assign, StmtKind.assignBlocks] at h
      obtain ⟨⟨k', t₂⟩, blocks, h⟩ := except_bind_eq_ok.mp h
      cases h
      obtain ⟨⟨b', t₃⟩, body, h⟩ := except_bind_eq_ok.mp blocks
      cases h
      rw [Stmt.assignList_program t b body t' later]
      rfl
    case branch c th e =>
      cases e with
      | some e =>
        simp only [Stmt.assign, StmtKind.assignBlocks] at h
        obtain ⟨⟨k', t₂⟩, blocks, h⟩ := except_bind_eq_ok.mp h
        cases h
        obtain ⟨⟨th', t₃⟩, thenBody, blocks⟩ := except_bind_eq_ok.mp blocks
        obtain ⟨⟨e', t₄⟩, elseBody, h⟩ := except_bind_eq_ok.mp blocks
        cases h
        rw [Stmt.assignList_program t th thenBody t'
            ((Stmt.assignList_extends R elseBody).trans later),
          Stmt.assignList_program t₃ e elseBody t' later]
        rfl
      | none =>
        simp only [Stmt.assign, StmtKind.assignBlocks] at h
        obtain ⟨⟨k', t₂⟩, blocks, h⟩ := except_bind_eq_ok.mp h
        cases h
        obtain ⟨⟨th', t₃⟩, thenBody, blocks⟩ := except_bind_eq_ok.mp blocks
        cases blocks
        rw [Stmt.assignList_program t th thenBody t' later]
        rfl
    all_goals
      simp only [Stmt.assign, StmtKind.assignBlocks] at h
      obtain ⟨⟨k', t₂⟩, blocks, h⟩ := except_bind_eq_ok.mp h
      cases h
      cases blocks
      rfl

/-- A block after assignment is the block with each waveform declaration indexed by its first
value's key, in the table assignment goes on to finish. -/
theorem Stmt.assignList_program : ∀ (t : CommandTable) (b : List Stmt) {b' : List Stmt}
    {t₁ : CommandTable}, Stmt.assignList R.waveformUse t b = .ok (b', t₁) → ∀ t', t₁.Extends t' →
      b' = Stmt.withTableIndexList (R.firstIndex t') b
  | t, [], b', t₁, h, t', _ => by
    cases h
    rfl
  | t, s :: rest, b', t₁, h, t', later => by
    simp only [Stmt.assignList] at h
    obtain ⟨⟨s', t₂⟩, head, h⟩ := except_bind_eq_ok.mp h
    obtain ⟨⟨rest', t₃⟩, tail, h⟩ := except_bind_eq_ok.mp h
    cases h
    rw [Stmt.withTableIndexList, Stmt.assign_program t s head t' ((Stmt.assignList_extends R tail).trans later),
      Stmt.assignList_program t₂ rest tail t' later]
end

/-! ### Assignment -/

/-- Assignment inserts what the program supplies into an empty table. -/
theorem Program.assignResources_table (R : ClockReport) (k : Nat) (Q : Program) :
    (Q.assignResources R k).map Prod.snd =
      CommandTable.insertSeq (CommandTable.ofSupplied k []) (R.supplied Q) :=
  Stmt.assignList_table R (CommandTable.empty k) Q

/-- Command-table assignment is content-addressed, in order and within capacity. For a capacity
that indices fit, assignment succeeds exactly when the program supplies at most that many
distinct keys. The table then holds the supplied keys in order of first occurrence, entry `i`
numbered `i` with the samples of its key's first waveform; a key finds entry `i` exactly when
it is that entry's key, and a key the program does not supply finds none; and each waveform
declaration with recorded values is indexed by its first value's key. Otherwise assignment
fails with the capacity error at the range of the statement that supplied the key one past the
capacity. -/
theorem Program.assignResources_spec (R : ClockReport) (k : Nat) (Q : Program)
    (fits : k ≤ CommandTable.indexLimit) :
    ((∃ r, Q.assignResources R k = .ok r) ↔ (CommandTable.keysOf (R.supplied Q)).length ≤ k) ∧
    (∀ Q' t, Q.assignResources R k = .ok (Q', t) →
      t.capacity = k ∧
      t.entries.toList.map (·.key) = CommandTable.keysOf (R.supplied Q) ∧
      (∀ i (h : i < t.entries.size), t.entries[i].index = i ∧
        ((R.supplied Q).find? (·.1.key == t.entries[i].key)).map (·.1.samples) =
          some t.entries[i].samples) ∧
      (∀ key i, t.get? key = some i ↔ ∃ h : i < t.entries.size, t.entries[i].key = key) ∧
      (∀ key, key ∉ CommandTable.keysOf (R.supplied Q) → t.get? key = none) ∧
      Q' = Stmt.withTableIndexList (R.firstIndex t) Q) ∧
    (∀ e, Q.assignResources R k = .error e →
      ∃ w range, ((CommandTable.keysOf (R.supplied Q))[k]?).bind
          (fun key => (R.supplied Q).find? (·.1.key == key)) = some (w, range) ∧
        e = ⟨.tableFull k, range⟩) := by
  have table := Program.assignResources_table R k Q
  obtain ⟨fitting, beyond⟩ :=
    CommandTable.insertSeq_ofSupplied fits (R.supplied Q) [] (Nat.zero_le k)
  rw [List.nil_append] at fitting beyond
  have within : ∀ r, Q.assignResources R k = .ok r →
      (CommandTable.keysOf (R.supplied Q)).length ≤ k := by
    intro r hr
    refine Nat.le_of_not_lt fun more => ?_
    obtain ⟨w, range, _, failed⟩ := beyond more
    rw [← table, hr] at failed
    cases failed
  refine ⟨⟨fun ⟨r, hr⟩ => within r hr, fun le => ?_⟩, fun Q' t hr => ?_, fun e he => ?_⟩
  · obtain ⟨r, hr, _⟩ := except_map_eq_ok.mp (table.trans (fitting le))
    exact ⟨r, hr⟩
  · have filled : t = CommandTable.ofSupplied k (R.supplied Q) := by
      have := table.trans (fitting (within _ hr))
      rw [hr] at this
      cases this
      rfl
    subst filled
    exact ⟨rfl, CommandTable.ofSupplied_keys k _, CommandTable.ofSupplied_entry k _,
      CommandTable.get?_ofSupplied_eq_some_iff k _, fun _ => CommandTable.get?_ofSupplied_eq_none k _,
      Stmt.assignList_program R _ Q hr _ (CommandTable.Extends.refl _)⟩
  · have more : k < (CommandTable.keysOf (R.supplied Q)).length := by
      refine Nat.lt_of_not_le fun le => ?_
      have := table.trans (fitting le)
      rw [he] at this
      cases this
    obtain ⟨w, range, first, failed⟩ := beyond more
    rw [← table, he] at failed
    cases failed
    exact ⟨w, range, first, rfl⟩

/-- A declaration and a play of waveforms with one key share a table of a single entry. -/
theorem Program.assignResources_sharedKey :
    1 ≤ CommandTable.indexLimit ∧
      ∃ r, Program.assignResources
        { declaredWaveforms := [(0, [⟨"gauss", 64⟩])], waveforms := [⟨1, "d", ⟨"gauss", 64⟩⟩] } 1
        [.mk 0 {} none (.waveform ⟨"w", {}, none⟩ (.call ⟨"gauss", {}, none⟩ []) none),
         .mk 1 {} none (.play ⟨"d", {}, none⟩ (.ident ⟨"w", {}, none⟩))] = .ok r :=
  ⟨by decide, (Program.assignResources_spec _ 1 _ (by decide)).1.mpr (by decide)⟩

end PulseCompiler
