/-!
# Ranges — tables of characters

A table lists the first and the last code points of its ranges, in four parts for four blocks of
code points.
-/

namespace ImportXref

/-- Whether the number lies in one of the ranges. -/
def inRanges (ranges : List (Nat × Nat)) (n : Nat) : Bool :=
  ranges.any fun (first, last) => first ≤ n && n ≤ last

/-- Whether the number lies in the part of a table that covers its block of code points. -/
def inTable (low basic middle high : List (Nat × Nat)) (n : Nat) : Bool :=
  if n < 0x1000 then inRanges low n
  else if n < 0x10000 then inRanges basic n
  else if n < 0x11400 then inRanges middle n
  else inRanges high n

end ImportXref
