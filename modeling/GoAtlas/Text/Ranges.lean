/-!
# Sets of code points as sorted ranges
-/

namespace GoAtlas
namespace Text

/-- Closed ranges of code points in ascending order. -/
abbrev Ranges := List (Nat × Nat)

namespace Ranges

def contains (ranges : Ranges) (code : Nat) : Bool :=
  ranges.any fun range => range.1 ≤ code && code ≤ range.2

end Ranges
end Text
end GoAtlas
