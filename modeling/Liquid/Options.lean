/-! # Settings of a template -/

namespace Liquid

structure Options where
  /-- The number of blocks that may be open inside one another. -/
  maxDepth : Nat := 100
  /-- Whether a variable that is not found is an error. -/
  strict : Bool := false
deriving DecidableEq

end Liquid
