import Formulary.Ty.Substitution

namespace Formulary

abbrev TypeEnv := SortedMap String Ty

namespace TypeEnv

/-- The names of an environment, in order. -/
def names (env : TypeEnv) : List String := env.keys

/-- Adds bindings over those that are there. -/
def extend (env : TypeEnv) (bindings : List (String × Ty)) : TypeEnv := env.insertAll bindings

end TypeEnv

end Formulary
