/-!
What comes from outside, one value after the other: random numbers, the readings of a clock.

The values are laid down in advance and can be any at all.
-/
namespace ReducedX86

structure Feed (α : Type) where
  value : Nat → α
  /-- how many have been taken -/
  taken : Nat := 0
  deriving Inhabited

namespace Feed

variable {α : Type}

/-- The value that is taken next. -/
def head (f : Feed α) : α := f.value f.taken

def tail (f : Feed α) : Feed α := { f with taken := f.taken + 1 }

/-- The value that is taken after `n` others. -/
def get (f : Feed α) (n : Nat) : α := f.value (f.taken + n)

end Feed

end ReducedX86
