import PulseCompiler.Analysis.Overload
set_option autoImplicit false

/-!
# What a mangled defcal name determines

`mangleDefcal` writes a defcal's name after its length in bytes, then its number of parameters,
its number of qubits and its qubits, each qubit after a `_`. Read back from the left, the
decimal length ends at the first character that is not a digit, so it is found again when the
name does not start with a digit, and then the name is the right number of bytes; the two
counts end at the `_` that follows them; and the qubits part at their `_` when no qubit's text
holds one. Under these two conditions the mangled name determines the name, the number of
parameters and the printed qubits (`mangleDefcal_inj`).

Without them it does not. The qubits are joined by a bare `_`, so `defcal g a_b, c` and
`defcal g a, b_c` share a mangled name (`mangleDefcal_underscore_collision`), and the analyzer
refuses the second as already declared. A name that starts with a digit lets the length be
read as a longer number: `defcal 1 ab, PN0, QN0` and a defcal named `_PN0_QN3_ab` on no qubits
share one too (`mangleDefcal_digit_collision`).
-/

namespace PulseCompiler

/-! ### Reading back a run of characters -/

namespace List

variable {α : Type} {p : α → Bool}

/-- A run of items that pass a test, followed by one that fails it or by nothing, is what
`takeWhile` reads. -/
theorem takeWhile_run {a r : List α} (ha : ∀ x ∈ a, p x = true)
    (hr : ∀ x ∈ r.head?, p x = false) : (a ++ r).takeWhile p = a := by
  rw [List.takeWhile_append_of_pos ha]
  cases r with
  | nil => simp
  | cons x rest =>
    have stop : p x = false := hr x rfl
    simp [stop]

/-- What the first of two joined lists starts with, or the second when the first is empty. -/
theorem head?_append_of_forall {q : α → Prop} {a b : List α} (ha : ∀ x ∈ a.head?, q x)
    (hb : ∀ x ∈ b.head?, q x) : ∀ x ∈ (a ++ b).head?, q x := by
  cases a with
  | nil => simpa using hb
  | cons y rest => simpa using ha

/-- Two runs that end where the test fails are equal when what they begin is equal, and so
is what follows them. -/
theorem eq_of_run_append_eq {a b r s : List α} (ha : ∀ x ∈ a, p x = true)
    (hb : ∀ x ∈ b, p x = true) (hr : ∀ x ∈ r.head?, p x = false)
    (hs : ∀ x ∈ s.head?, p x = false) (h : a ++ r = b ++ s) : a = b ∧ r = s := by
  have runs : a = b := by
    rw [← takeWhile_run ha hr, ← takeWhile_run hb hs, h]
  subst runs
  exact ⟨rfl, List.append_cancel_left h⟩

end List

/-! ### Numbers and names -/

theorem toString_toList (n : Nat) : (toString n).toList = Nat.toDigits 10 n := by
  rw [Nat.toString_eq_ofList_toDigits, String.toList_ofList]

theorem isDigit_of_mem_toDigits {n : Nat} {c : Char} (h : c ∈ Nat.toDigits 10 n) :
    c.isDigit = true :=
  Nat.isDigit_of_mem_toDigits (by decide) (by decide) h

/-- Decimal digits that stop where a non-digit follows are read back as their number. -/
theorem eq_of_toDigits_append_eq {m n : Nat} {r s : List Char}
    (hr : ∀ c ∈ r.head?, c.isDigit = false) (hs : ∀ c ∈ s.head?, c.isDigit = false)
    (h : Nat.toDigits 10 m ++ r = Nat.toDigits 10 n ++ s) : m = n ∧ r = s := by
  obtain ⟨digits, rest⟩ :=
    List.eq_of_run_append_eq (fun _ => isDigit_of_mem_toDigits)
      (fun _ => isDigit_of_mem_toDigits) hr hs h
  refine ⟨?_, rest⟩
  calc m = Nat.ofDigitChars 10 (Nat.toDigits 10 m) 0 := Nat.ofDigitChars_ten_toDigits.symm
    _ = Nat.ofDigitChars 10 (Nat.toDigits 10 n) 0 := by rw [digits]
    _ = n := Nat.ofDigitChars_ten_toDigits

/-- A text that continues another of the same size in bytes adds nothing to it. -/
theorem String.eq_nil_of_toList_eq_append {s t : String} {extra : List Char}
    (size : s.utf8ByteSize = t.utf8ByteSize) (h : t.toList = s.toList ++ extra) : extra = [] := by
  have joined : t = s ++ String.ofList extra :=
    String.toList_injective (by rw [String.toList_append, String.toList_ofList, h])
  have empty : (String.ofList extra).utf8ByteSize = 0 := by
    have sizes := congrArg String.utf8ByteSize joined
    rw [String.utf8ByteSize_append] at sizes
    omega
  rw [← String.toList_ofList (l := extra), String.utf8ByteSize_eq_zero_iff.mp empty]
  rfl

/-- Two names of the same size in bytes, each followed by some characters, are read back
from the characters of both. -/
theorem String.eq_of_toList_append_eq {s t : String} {r u : List Char}
    (size : s.utf8ByteSize = t.utf8ByteSize) (h : s.toList ++ r = t.toList ++ u) :
    s = t ∧ r = u := by
  rcases List.append_eq_append_iff.mp h with ⟨extra, ht, hr⟩ | ⟨extra, hs, hu⟩
  · have none := String.eq_nil_of_toList_eq_append size ht
    subst none
    exact ⟨String.toList_injective (by simpa using ht.symm), by simpa using hr⟩
  · have none := String.eq_nil_of_toList_eq_append size.symm hs
    subst none
    exact ⟨String.toList_injective (by simpa using hs), by simpa using hu.symm⟩

/-! ### Qubits -/

/-- The characters the qubits of a mangled name take: each qubit's text after a `_`. -/
def Qubit.mangledChars (qs : List Qubit) : List Char :=
  qs.flatMap fun q => '_' :: q.text.toList

theorem Qubit.mangledChars_head (qs : List Qubit) :
    ∀ c ∈ (Qubit.mangledChars qs).head?, c = '_' := by
  cases qs with
  | nil => simp [Qubit.mangledChars]
  | cons q rest => simp [Qubit.mangledChars]

/-- Qubits whose texts hold no `_` are read back from their characters, as texts. -/
theorem Qubit.mangledChars_inj {qs₁ qs₂ : List Qubit}
    (plain₁ : ∀ q ∈ qs₁, '_' ∉ q.text.toList) (plain₂ : ∀ q ∈ qs₂, '_' ∉ q.text.toList)
    (h : Qubit.mangledChars qs₁ = Qubit.mangledChars qs₂) :
    qs₁.map Qubit.text = qs₂.map Qubit.text := by
  induction qs₁ generalizing qs₂ with
  | nil =>
    cases qs₂ with
    | nil => rfl
    | cons q rest => simp [Qubit.mangledChars] at h
  | cons q rest ih =>
    cases qs₂ with
    | nil => simp [Qubit.mangledChars] at h
    | cons q' rest' =>
      simp only [Qubit.mangledChars, List.flatMap_cons, List.cons_append, List.cons.injEq,
        true_and] at h
      have passes : ∀ {x : Qubit}, '_' ∉ x.text.toList → ∀ c ∈ x.text.toList, (c != '_') = true :=
        fun plain c hc => by
          have : c ≠ '_' := fun same => plain (same ▸ hc)
          simpa using this
      have stops : ∀ qs : List Qubit, ∀ c ∈ (Qubit.mangledChars qs).head?, (c != '_') = false :=
        fun qs c hc => by simp [Qubit.mangledChars_head qs c hc]
      obtain ⟨text, tail⟩ := List.eq_of_run_append_eq (p := (· != '_'))
        (passes (plain₁ q List.mem_cons_self)) (passes (plain₂ q' List.mem_cons_self))
        (stops rest) (stops rest') h
      have texts : q.text = q'.text := String.toList_injective text
      rw [List.map_cons, List.map_cons, texts,
        ih (fun x hx => plain₁ x (List.mem_cons_of_mem _ hx))
          (fun x hx => plain₂ x (List.mem_cons_of_mem _ hx)) tail]

/-! ### Mangled names -/

theorem mangleDefcal_toList (name : String) (params : Nat) (qubits : List Qubit) :
    (mangleDefcal name params qubits).toList =
      ['_', 'Z', 'N'] ++ (Nat.toDigits 10 name.utf8ByteSize ++ (name.toList ++
        (['_', 'P', 'N'] ++ (Nat.toDigits 10 params ++ (['_', 'Q', 'N'] ++
          (Nat.toDigits 10 qubits.length ++ (Qubit.mangledChars qubits ++ ['_', 'R']))))))) := by
  have joined : ∀ qs : List Qubit,
      (String.join (qs.map fun q => "_" ++ q.text)).toList = Qubit.mangledChars qs := by
    intro qs
    induction qs with
    | nil => rfl
    | cons q rest ih =>
      simp only [List.map_cons, String.join_cons, String.toList_append, ih]
      rfl
  simp only [mangleDefcal, String.toList_append, toString_toList, joined, List.append_assoc]
  rfl

theorem mangledTail_head (qubits : List Qubit) :
    ∀ c ∈ (Qubit.mangledChars qubits ++ ['_', 'R']).head?, c.isDigit = false :=
  List.head?_append_of_forall (fun c hc => by rw [Qubit.mangledChars_head qubits c hc]; rfl)
    (by simp)

/-- A mangled name determines the defcal's name, its number of parameters and its printed
qubits, when neither name starts with a digit and no qubit's text holds a `_`. -/
theorem mangleDefcal_inj {n₁ n₂ : String} {p₁ p₂ : Nat} {qs₁ qs₂ : List Qubit}
    (lead₁ : ∀ c ∈ n₁.toList.head?, c.isDigit = false)
    (lead₂ : ∀ c ∈ n₂.toList.head?, c.isDigit = false)
    (plain₁ : ∀ q ∈ qs₁, '_' ∉ q.text.toList) (plain₂ : ∀ q ∈ qs₂, '_' ∉ q.text.toList)
    (h : mangleDefcal n₁ p₁ qs₁ = mangleDefcal n₂ p₂ qs₂) :
    n₁ = n₂ ∧ p₁ = p₂ ∧ qs₁.map Qubit.text = qs₂.map Qubit.text := by
  have chars := congrArg String.toList h
  rw [mangleDefcal_toList, mangleDefcal_toList] at chars
  have afterZ := List.append_cancel_left chars
  obtain ⟨size, afterSize⟩ := eq_of_toDigits_append_eq
    (List.head?_append_of_forall lead₁ (by simp)) (List.head?_append_of_forall lead₂ (by simp))
    afterZ
  obtain ⟨names, afterName⟩ := String.eq_of_toList_append_eq size afterSize
  have afterP := List.append_cancel_left afterName
  obtain ⟨params, afterParams⟩ := eq_of_toDigits_append_eq (by simp) (by simp) afterP
  have afterQ := List.append_cancel_left afterParams
  obtain ⟨-, afterCount⟩ :=
    eq_of_toDigits_append_eq (mangledTail_head qs₁) (mangledTail_head qs₂) afterQ
  exact ⟨names, params,
    Qubit.mangledChars_inj plain₁ plain₂ (List.append_cancel_right afterCount)⟩

/-- The hardware qubit `$0` and a named qubit printed `$0` give one mangled name: what it
determines is the printed qubits. -/
theorem mangleDefcal_inj_printed :
    "rx" = "rx" ∧ 1 = 1 ∧
      [Qubit.hardware 0].map Qubit.text = [Qubit.named { name := "$0" }].map Qubit.text :=
  mangleDefcal_inj (by simp) (by simp) (by decide) (by decide) (by decide)

/-- `defcal g a_b, c` and `defcal g a, b_c` share a mangled name, though their qubits differ:
the `_` inside a qubit's name reads as the separator of the next. -/
theorem mangleDefcal_underscore_collision :
    mangleDefcal "g" 0 [.named { name := "a_b" }, .named { name := "c" }] =
        mangleDefcal "g" 0 [.named { name := "a" }, .named { name := "b_c" }] ∧
      [Qubit.named { name := "a_b" }, .named { name := "c" }].map Qubit.text ≠
        [Qubit.named { name := "a" }, .named { name := "b_c" }].map Qubit.text := by
  decide

/-- A defcal named `1` on the named qubits `ab, PN0, QN0` and a defcal named `_PN0_QN3_ab` on
no qubits share a mangled name: the length `1` followed by the name `1` reads as the length
`11`. -/
theorem mangleDefcal_digit_collision :
    mangleDefcal "1" 0
        [.named { name := "ab" }, .named { name := "PN0" }, .named { name := "QN0" }] =
      mangleDefcal "_PN0_QN3_ab" 0 [] := by
  decide

end PulseCompiler
