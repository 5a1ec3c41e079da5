import Mathlib.Algebra.Order.Ring.Rat
import Mathlib.Algebra.Order.Group.Unbundled.Abs

/-!
# Memory pressure readings

The pressure averages of `/proc/pressure/memory` and their classification. The
averages are `f32` in the daemon; the classifier is written over any number type
with the operations it uses, so that it can be read at `Float32` and at exact
rationals alike.
-/

namespace Animaksm.Common

/-- The arithmetic and the comparisons of the pressure averages. -/
class Average (K : Type) extends Add K, Sub K, Mul K, LE K, LT K, OfScientific K where
  abs : K → K
  decidableLE : DecidableLE K
  decidableLT : DecidableLT K

attribute [reducible, instance] Average.decidableLE Average.decidableLT

/-- The daemon's own averages. -/
instance : Average Float32 where
  abs := Float32.abs
  decidableLE := inferInstance
  decidableLT := inferInstance

/-- Exact averages. -/
instance : Average ℚ where
  abs := fun x => |x|
  decidableLE := inferInstance
  decidableLT := inferInstance

/-- One line of PSI data (some or full). -/
structure PsiLine (K : Type) where
  avg10 : K
  avg60 : K
  avg300 : K
  total : UInt64
  deriving DecidableEq

/-- Parsed PSI stats for a single resource. -/
structure PsiStats (K : Type) where
  some : PsiLine K
  full : PsiLine K
  deriving DecidableEq

/-- Classified pressure level. -/
inductive PressureLevel where
  | idle
  | low
  | medium
  | high
  | critical
  deriving DecidableEq, Repr

/-- The place of a level in the derived order. -/
def PressureLevel.rank : PressureLevel → Nat
  | .idle => 0
  | .low => 1
  | .medium => 2
  | .high => 3
  | .critical => 4

instance : LE PressureLevel := ⟨fun a b => a.rank ≤ b.rank⟩

instance (a b : PressureLevel) : Decidable (a ≤ b) := inferInstanceAs (Decidable (a.rank ≤ b.rank))

variable {K : Type} [Average K]

/-- Classify pressure into a level using configurable thresholds. -/
def PsiStats.classify (psi : PsiStats K) (someThreshold fullThreshold : K) : PressureLevel :=
  let score := (0.7 : K) * psi.full.avg10 + (0.3 : K) * psi.some.avg10
  if score ≥ (20.0 : K) then .critical
  else if score ≥ (10.0 : K) ∨ psi.full.avg10 ≥ fullThreshold * (2.0 : K) then .high
  else if score ≥ (5.0 : K) ∨ psi.some.avg10 ≥ someThreshold then .medium
  else if score ≥ (0.5 : K) then .low
  else .idle

end Animaksm.Common
