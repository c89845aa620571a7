/-!
# Options of a check
-/

namespace ConstructorCheck

/-- What a caller may choose about a check. -/
structure Options where
  /-- Whether large batches of sites are checked by several tasks at once. -/
  parallel : Bool
  /-- The size from which on a batch is large. -/
  parallelThreshold : Nat
  /-- Whether diagnostics carry notes. -/
  relatedInformation : Bool
deriving DecidableEq, Repr

namespace Options

/-- The options of someone who chooses nothing. -/
def default : Options := ⟨true, 64, true⟩

/-- The default options, with one task only. -/
def sequential : Options := { default with parallel := false }

/-- Whether a batch of this size is split among tasks. An empty batch never is. -/
def runsInParallel (o : Options) (batch : Nat) : Bool :=
  o.parallel && max o.parallelThreshold 1 ≤ batch

end Options

end ConstructorCheck
