set_option autoImplicit false

/-!
# Predefined constants

Six names are bound before any program is read: `pi`, `tau` and `euler`, each also under
its symbol `π`, `τ` and `ℇ`. They hold the doubles nearest to π, 2π and e.
-/

namespace PulseCompiler

/-- The predefined constants in the order they are bound. -/
def builtinConstants : List (String × Float) :=
  [("pi", 3.141592653589793), ("π", 3.141592653589793),
   ("tau", 6.283185307179586), ("τ", 6.283185307179586),
   ("euler", 2.718281828459045), ("ℇ", 2.718281828459045)]

/-- The value of a predefined constant. -/
def builtinValue? (name : String) : Option Float :=
  (builtinConstants.find? (·.1 == name)).map (·.2)

end PulseCompiler
