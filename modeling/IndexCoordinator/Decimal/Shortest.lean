import IndexCoordinator.Decimal.Binary64

/-!
# The shortest decimal of a double

`shortest` gives the fewest digits that read back as the same double, and of those the nearest.
For 1, 2, ... 17 digits the two neighbours of the value on that decimal grid are tried: if any
point of the grid reads back, one of the two does.
-/

namespace IndexCoordinator.Decimal

/-- a positive decimal `0.d₁d₂… * 10 ^ point` -/
structure Digits where
  digits : List Char
  point : Int
deriving DecidableEq, Repr

namespace Binary64

/-- four times the value and the two ends of the interval that rounds to it, over a common
denominator -/
def interval (v : Binary64) : Nat × Nat × Nat × Nat :=
  let (n, d) : Nat × Nat :=
    if 0 ≤ v.exp then (Nat.pow 2 v.exp.toNat, 1) else (1, Nat.pow 2 (-v.exp).toNat)
  let below := if v.sig = minNormal ∧ minExp < v.exp then 4 * v.sig - 1 else 4 * v.sig - 2
  (4 * v.sig * n, below * n, (4 * v.sig + 2) * n, 4 * d)

/-- the power of ten with `10 ^ (k - 1) ≤ num / den < 10 ^ k`, sought from a guess on -/
def pointFrom (num den : Nat) : Nat → Int → Int
  | 0, k => k
  | fuel + 1, k =>
    let below := if 0 ≤ k then decide (num < den * Nat.pow 10 k.toNat)
      else decide (num * Nat.pow 10 (-k).toNat < den)
    if below then k else pointFrom num den fuel (k + 1)

/-- the digits on the grid of `n` digits that read back, if any: the nearer of the two
neighbours -/
def onGrid (tie : Tie) (v : Binary64) (k : Int) (n : Nat) : Option Nat :=
  let (value, low, high, den) := v.interval
  let shift := k - n
  let (value, low, high, den) : Nat × Nat × Nat × Nat :=
    if 0 ≤ shift then (value, low, high, den * Nat.pow 10 shift.toNat)
    else
      let t := Nat.pow 10 (-shift).toNat
      (value * t, low * t, high * t, den)
  let reads (d : Nat) : Bool :=
    if v.sig % 2 = 0 then decide (low ≤ d * den) && decide (d * den ≤ high)
    else decide (low < d * den) && decide (d * den < high)
  let d := value / den
  if reads d && reads (d + 1) then some (roundNearest tie value den)
  else if reads d then some d
  else if reads (d + 1) then some (d + 1)
  else none

def firstGrid (tie : Tie) (v : Binary64) (k : Int) : Nat → Nat → Nat × Nat
  | 0, n => (0, n)
  | fuel + 1, n =>
    match onGrid tie v k n with
    | some d => (d, n)
    | none => firstGrid tie v k fuel (n + 1)

/-- the shortest decimal that reads back as a positive double -/
def shortest (tie : Tie) (v : Binary64) : Digits :=
  let (value, _, _, den) := v.interval
  let guess : Int := ((Nat.log2 value : Int) - (Nat.log2 den : Int) - 1) * 30103 / 100000 - 1
  let k := pointFrom value den 8 guess
  let (d, n) := firstGrid tie v k 18 1
  let ds := Nat.toDigits 10 d
  -- a neighbour may be the next power of ten, with one digit more
  let k' : Int := k + ds.length - n
  ⟨(ds.reverse.dropWhile (· = '0')).reverse, k'⟩

end Binary64

structure Style where
  /-- the places of the decimal point that are written without an exponent -/
  positionalFrom : Option Int
  positionalTo : Option Int
  /-- whether an exponent that is not negative has a plus sign -/
  plusSign : Bool
  /-- which of two texts equally near is taken -/
  tie : Binary64.Tie
deriving DecidableEq, Repr

namespace Digits

def positional (x : Digits) : List Char :=
  let n : Int := x.digits.length
  if x.point ≤ 0 then ['0', '.'] ++ List.replicate (-x.point).toNat '0' ++ x.digits
  else if n ≤ x.point then x.digits ++ List.replicate (x.point - n).toNat '0' ++ ['.', '0']
  else x.digits.take x.point.toNat ++ ['.'] ++ x.digits.drop x.point.toNat

def scientific (plusSign : Bool) (x : Digits) : List Char :=
  let sign := if plusSign && 1 ≤ x.point then ['+'] else []
  let mark := 'e' :: (sign ++ (toString (x.point - 1)).toList)
  match x.digits with
  | d :: (r :: rest) => d :: '.' :: r :: rest ++ mark
  | ds => ds ++ mark

def render (style : Style) (x : Digits) : List Char :=
  let low := style.positionalFrom.all fun a => decide (a ≤ x.point)
  let high := style.positionalTo.all fun b => decide (x.point ≤ b)
  if low && high then x.positional else x.scientific style.plusSign

end Digits

/-- a double as text: the sign, then the shortest digits; zero has one digit on each side -/
def Binary64.render (style : Style) (negative : Bool) (v : Binary64) : String :=
  let sign := if negative then ['-'] else []
  String.ofList (sign ++ if v.sig = 0 then ['0', '.', '0'] else (v.shortest style.tie).render style)

end IndexCoordinator.Decimal
