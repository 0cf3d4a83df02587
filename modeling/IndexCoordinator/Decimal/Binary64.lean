/-!
# Binary floating point numbers from decimals

A double is `sig * 2 ^ exp` with `sig < 2 ^ 53` and `exp` at least -1074.  `ofDecimal` rounds a
decimal to the nearest double, a half to the even one, in exact arithmetic.
-/

namespace IndexCoordinator.Decimal

/-- a finite double without its sign -/
structure Binary64 where
  sig : Nat
  exp : Int
deriving DecidableEq, Repr

namespace Binary64

def minExp : Int := -1074

def maxExp : Int := 971

/-- the least significand with 53 bits -/
def minNormal : Nat := 0x10000000000000

/-- what becomes of a half -/
inductive Tie where
  | toEven
  /-- away from zero -/
  | away
deriving DecidableEq, Repr

def roundNearest (tie : Tie) (num den : Nat) : Nat :=
  let q := num / den
  let r := num % den
  if 2 * r < den then q
  else if den < 2 * r then q + 1
  else match tie with
    | .toEven => if q % 2 = 0 then q else q + 1
    | .away => q + 1

/-- `num / den / 2 ^ e` as a fraction -/
def scaled (num den : Nat) (e : Int) : Nat × Nat :=
  if 0 ≤ e then (num, den * Nat.pow 2 e.toNat) else (num * Nat.pow 2 (-e).toNat, den)

/-- the exponent at which a positive quotient has 53 bits, or the least exponent -/
def exponentFor (num den : Nat) : Int :=
  let guess : Int := (Nat.log2 num : Int) - (Nat.log2 den : Int) - 53
  let (n, d) := scaled num den guess
  let e := if 2 * minNormal ≤ n / d then guess + 1 else guess
  max e minExp

/-- the double nearest to a positive quotient; none if it is too large -/
def ofQuotient (num den : Nat) : Option Binary64 :=
  let e := exponentFor num den
  let (n, d) := scaled num den e
  let s := roundNearest .toEven n d
  let (s, e) := if s = 2 * minNormal then (minNormal, e + 1) else (s, e)
  if maxExp < e then none else some ⟨s, e⟩

/-- the double nearest to `m * 10 ^ e`; none if it is too large.  An exponent far outside the
range of doubles is settled by the number of digits alone. -/
def ofDecimal (m : Nat) (e : Int) : Option Binary64 :=
  let top : Int := (Nat.toDigits 10 m).length + e
  if m = 0 ∨ top < -400 then some ⟨0, minExp⟩
  else if 400 < top then none
  else if 0 ≤ e then ofQuotient (m * Nat.pow 10 e.toNat) 1
  else ofQuotient m (Nat.pow 10 (-e).toNat)

end Binary64

end IndexCoordinator.Decimal
