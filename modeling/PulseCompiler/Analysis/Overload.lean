import PulseCompiler.Program.Stmt
set_option autoImplicit false

/-!
# Defcal overloads

A defcal may be defined several times for different qubits, such as `defcal measure $0` and
`defcal measure $1`. Each definition is bound under a mangled name that spells its name, its
number of parameters and its qubits:

  `defcal x $0` is `_ZN1x_PN0_QN1_$0_R`, `defcal rz(a) q` is `_ZN2rz_PN1_QN1_q_R`.

A call picks the definition whose qubits match best: a hardware qubit of the definition must
equal the call's (two points), a named qubit of the definition matches anything (one point).
-/

namespace PulseCompiler

/-- The mangled name of a defcal; the name's length is counted in UTF-8 bytes. -/
def mangleDefcal (name : String) (params : Nat) (qubits : List Qubit) : String :=
  "_ZN" ++ toString name.utf8ByteSize ++ name ++ "_PN" ++ toString params ++ "_QN" ++
    toString qubits.length ++ String.join (qubits.map fun q => "_" ++ q.text) ++ "_R"

/-- How well a call on `called` matches a definition on `defined`, where `none` is a named
qubit; `none` when the definition cannot serve the call. -/
def matchScore : List (Option Nat) → List (Option Nat) → Option Nat
  | [], [] => some 0
  | d :: ds, c :: cs =>
    match d with
    | some dq =>
      if c == some dq then (matchScore ds cs).map (· + 2) else none
    | none => (matchScore ds cs).map (· + 1)
  | _, _ => none

end PulseCompiler
