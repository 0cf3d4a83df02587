/-!
# Widths of integers

How many bits an integer needs, as far as formats tell it apart.
-/

namespace IndexCoordinator.Decimal

/-- the narrowest of the widths that formats know which holds an integer -/
inductive Width where
  /-- not negative, at most 64 bits -/
  | unsigned64
  /-- negative, at most 64 bits with the sign -/
  | negative64
  /-- at most 128 bits with the sign -/
  | signed128
  /-- not negative, at most 128 bits -/
  | unsigned128
  | wider
deriving DecidableEq, Repr

namespace Width

def ofInt (n : Int) : Width :=
  if 0 ≤ n ∧ n < 0x10000000000000000 then .unsigned64
  else if -0x8000000000000000 ≤ n ∧ n < 0 then .negative64
  else if -0x80000000000000000000000000000000 ≤ n ∧ n < 0x80000000000000000000000000000000 then
    .signed128
  else if 0 ≤ n ∧ n < 0x100000000000000000000000000000000 then .unsigned128
  else .wider

end Width

end IndexCoordinator.Decimal
