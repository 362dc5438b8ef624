import NetRelocation.Text.Split

/-!
# Paths by components

Two paths name the same place by their spelling alone when they have the same components: empty
pieces do not count, nor does a single dot, unless it starts a relative path. Two dots count.
-/

namespace NetRelocation

/-- The components of a path. -/
structure PathKey where
  rooted : Bool
  parts : List String
  deriving DecidableEq, Repr

namespace PathKey

/-- The components of a written path. -/
def ofString (s : String) : PathKey :=
  let pieces := Text.split '/' s
  let named := pieces.filter fun p => p ≠ "" ∧ p ≠ "."
  match pieces with
  | "" :: _ :: _ => ⟨true, named⟩
  | "." :: _ => ⟨false, "." :: named⟩
  | _ => ⟨false, named⟩

end PathKey

end NetRelocation
