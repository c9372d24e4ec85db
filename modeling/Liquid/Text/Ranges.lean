/-!
# Ranges of numbers

A class of characters is given by the ranges of the numbers of its members.
-/

namespace Liquid
namespace Text

/-- Whether some range of the table holds the number. -/
def inRanges (ranges : Array (Nat × Nat)) (n : Nat) : Bool :=
  ranges.any fun r => r.1 ≤ n && n ≤ r.2

end Text
end Liquid
