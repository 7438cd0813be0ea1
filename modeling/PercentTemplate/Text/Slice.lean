/-!
# Slices by signed position

Parts of a list between an end and a position that may be negative, in which case it counts from the
end, or lie beyond either end, in which case it stands for that end.

## Main definitions

- `Slice.bound` — a signed position as an offset within a list
- `Slice.upTo`, `Slice.since` — the part before a position and the part from it on
-/

namespace PercentTemplate.Slice

/-- The offset that `position` means in a list of length `n`. -/
def bound (n : Nat) (position : Int) : Nat :=
  if position < 0 then (n + position).toNat else min position.toNat n

def upTo {α : Type} (xs : List α) (position : Int) : List α :=
  xs.take (bound xs.length position)

def since {α : Type} (xs : List α) (position : Int) : List α :=
  xs.drop (bound xs.length position)

theorem bound_le (n : Nat) (position : Int) : bound n position ≤ n := by
  unfold bound
  split <;> omega

theorem upTo_append_since {α : Type} (xs : List α) (position : Int) :
    upTo xs position ++ since xs position = xs :=
  List.take_append_drop _ xs

end PercentTemplate.Slice
