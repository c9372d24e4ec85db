/-!
# Dividing and searching

Dividing a list at the first separator, and looking for one list inside another.
-/

namespace Liquid
namespace Text

variable {α : Type}

/-- What stands before and after the first separator, if there is one. -/
def divideAt? [BEq α] (separator : α) : List α → Option (List α × List α)
  | [] => none
  | a :: l =>
    if a == separator then some ([], l)
    else (divideAt? separator l).map fun parts => (a :: parts.1, parts.2)

/-- Whether the first list occurs in the second without a gap. -/
def occursIn [BEq α] (needle : List α) : List α → Bool
  | [] => needle.isEmpty
  | a :: l => needle.isPrefixOf (a :: l) || occursIn needle l

end Text
end Liquid
