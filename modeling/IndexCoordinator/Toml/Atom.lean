import IndexCoordinator.Toml.Node

/-!
# Values without quotes or brackets

Booleans, integers, floating point numbers, dates and times: everything that is one run of
characters.  `Atom.read` decides which of them a run is, if any.
-/

namespace IndexCoordinator.Toml.Atom

def isBinary (c : Char) : Bool := c = '0' || c = '1'
def isOctal (c : Char) : Bool := '0' ≤ c && c ≤ '7'
def isDecimal (c : Char) : Bool := '0' ≤ c && c ≤ '9'
def isHex (c : Char) : Bool := isDecimal c || ('a' ≤ c && c ≤ 'f') || ('A' ≤ c && c ≤ 'F')

def digitValue (c : Char) : Nat :=
  if isDecimal c then c.toNat - '0'.toNat
  else if 'a' ≤ c then c.toNat - 'a'.toNat + 10
  else c.toNat - 'A'.toNat + 10

def number (base : Nat) (digits : List Char) : Nat :=
  digits.foldl (fun n c => n * base + digitValue c) 0

/-! ## underscores -/

def groups : List Char → List (List Char)
  | [] => [[]]
  | c :: rest =>
    if c = '_' then [] :: groups rest
    else match groups rest with
      | [] => [[c]]
      | g :: more => (c :: g) :: more

def beginsWell (isDigit : Char → Bool) (g : List Char) : Bool := g.head?.any isDigit

def endsWell (isDigit : Char → Bool) (g : List Char) : Bool := g.getLast?.any isDigit

/-- whether all underscores stand between digits.  Only the characters beside an underscore are
looked at, and what follows the last group's first digit is left open. -/
def isGrouped (isDigit : Char → Bool) (cs : List Char) : Bool :=
  match groups cs with
  | [] => true
  | [_] => true
  | first :: more =>
    (first :: more.dropLast).all (endsWell isDigit) && more.all (beginsWell isDigit)

def ungroup (cs : List Char) : List Char := cs.filter fun c => c ≠ '_'

/-! ## integers and floating point numbers -/

def sign : List Char → Option Char × List Char
  | '-' :: rest => (some '-', rest)
  | '+' :: rest => (some '+', rest)
  | rest => (none, rest)

/-- the number that digits denote; nothing if there is none of them, or something else -/
def natural (base : Nat) (isDigit : Char → Bool) (cs : List Char) : Option Nat :=
  if cs.isEmpty || !cs.all isDigit then none else some (number base cs)

/-- an integer with a mark of its base, after the mark.  The mark alone is an integer literal too,
but denotes nothing. -/
def based (base : Nat) (isDigit : Char → Bool) (cs : List Char) : Option Node :=
  if cs.all (fun c => isDigit c || c = '_') && isGrouped isDigit cs then
    some (.integer ((natural base isDigit (ungroup cs)).map fun n => (n : Int)))
  else none

/-- a decimal integer: no zero in front of anything else, and no space inside.  A run that has an
underscore after its first digits passes for an integer whatever the underscores hold together,
tabs included, and may denote nothing. -/
def decimal (cs : List Char) : Option Node :=
  let (mark, body) := sign cs
  let rest := body.dropWhile isDecimal
  let leadingZero := body.head? = some '0' ∧ body ≠ ['0']
  let wellFormed := !body.isEmpty && (rest.isEmpty || rest.head? = some '_') && !cs.contains ' '
  if !leadingZero && wellFormed && isGrouped isHex cs then
    some (.integer ((natural 10 isDecimal (ungroup body)).map fun n =>
      if mark = some '-' then -(n : Int) else (n : Int)))
  else none

/-- an exponent with its mark, or nothing, which is 0 -/
def exponent : List Char → Option Int
  | [] => some 0
  | _ :: rest =>
    let (mark, body) := sign rest
    (natural 10 isDecimal body).map fun n => if mark = some '-' then -(n : Int) else (n : Int)

/-- a finite floating point number without sign and underscores: digits, then a fraction, an
exponent, or both -/
def finite (negative : Bool) (body : List Char) : Option FloatLiteral :=
  let whole := body.takeWhile isDecimal
  let rest := body.dropWhile isDecimal
  let fraction := if rest.head? = some '.' then some (rest.tail.takeWhile isDecimal) else none
  let tail := if rest.head? = some '.' then rest.tail.dropWhile isDecimal else rest
  let marked := tail.isEmpty || tail.head? = some 'e' || tail.head? = some 'E'
  if whole.isEmpty || fraction = some [] || !marked then none
  else
    let ds := fraction.getD []
    (exponent tail).map fun e => .finite negative (number 10 (whole ++ ds)) (e - ds.length)

/-- a floating point number; it has no zero in front of other digits -/
def float (cs : List Char) : Option FloatLiteral :=
  let (mark, body) := sign cs
  let negative := mark = some '-'
  if body = "inf".toList then some (.infinite negative)
  else if body = "nan".toList then some .nan
  else
    let bare := ungroup body
    let leadingZero := body.head? = some '0' ∧ 1 < (bare.takeWhile isDecimal).length
    if !leadingZero && isGrouped isDecimal cs then finite negative bare else none

def isFloat (cs : List Char) : Bool :=
  cs.any (fun c => c = '.' || c = 'e' || c = 'E') || (sign cs).2.head?.any (fun c => c.isAlpha)

/-! ## dates and times -/

def digits (n : Nat) (cs : List Char) : Option (Nat × List Char) :=
  let ds := cs.take n
  if ds.length = n ∧ ds.all isDecimal then some (number 10 ds, cs.drop n) else none

def isLeap (year : Nat) : Bool := (year % 4 = 0 && year % 100 ≠ 0) || year % 400 = 0

def daysIn (year month : Nat) : Nat :=
  if month = 2 then (if isLeap year then 29 else 28)
  else if month = 4 ∨ month = 6 ∨ month = 9 ∨ month = 11 then 30
  else 31

def date (cs : List Char) : Option (List Char) := do
  let (year, cs) ← digits 4 cs
  let '-' :: cs := cs | none
  let (month, cs) ← digits 2 cs
  let '-' :: cs := cs | none
  let (day, cs) ← digits 2 cs
  if 1 ≤ month ∧ month ≤ 12 ∧ 1 ≤ day ∧ day ≤ daysIn year month then some cs else none

def secondFraction : List Char → Option (List Char)
  | '.' :: cs => if (cs.takeWhile isDecimal).isEmpty then none else some (cs.dropWhile isDecimal)
  | cs => some cs

/-- a time of day in front, and the rest; seconds may be left out -/
def time (cs : List Char) : Option (List Char) := do
  let (hour, cs) ← digits 2 cs
  let ':' :: cs := cs | none
  let (minute, cs) ← digits 2 cs
  if 23 < hour ∨ 59 < minute then none
  else match cs with
    | ':' :: cs => do
      let (second, cs) ← digits 2 cs
      if 60 < second then none else secondFraction cs
    | cs => some cs

/-- an offset from universal time that takes up everything, or nothing at all -/
def isOffset : List Char → Bool
  | [] => true
  | ['Z'] => true
  | ['z'] => true
  | c :: cs =>
    (c = '+' || c = '-') &&
      match digits 2 cs with
      | some (hour, ':' :: cs) =>
        match digits 2 cs with
        | some (minute, []) => decide (hour ≤ 23) && decide (minute ≤ 59)
        | _ => false
      | _ => false

def isDateTime (cs : List Char) : Bool :=
  match date cs with
  | some [] => true
  | some (c :: rest) =>
    (c = 'T' || c = 't' || c = ' ') &&
      match time rest with
      | some tail => isOffset tail
      | none => false
  | none =>
    match time cs with
    | some [] => true
    | _ => false

def read (cs : List Char) : Option Node :=
  if cs = "true".toList then some (.boolean true)
  else if cs = "false".toList then some (.boolean false)
  else if isDateTime cs then some .dateTime
  else match cs with
    | '0' :: 'x' :: rest => based 16 isHex rest
    | '0' :: 'o' :: rest => based 8 isOctal rest
    | '0' :: 'b' :: rest => based 2 isBinary rest
    | cs => if isFloat cs then (float cs).map .float else decimal cs

/-- the characters that end a run wherever they stand -/
def ends (c : Char) : Bool :=
  c = '\n' || c = '\r' || c = ',' || c = '#' || c = '=' || c = '[' || c = ']' || c = '\x7b' ||
    c = '\x7d'

def isBlank (c : Char) : Bool := c = ' ' || c = '\t'

def isQuote (c : Char) : Bool := c = '"' || c = '\''

/-- characters in front up to the end of a run, and the rest.  Blanks may stand inside a run, as
between a date and a time, but quotes after a blank do not belong to it. -/
def takeRun : Bool → List Char → List Char × List Char
  | _, [] => ([], [])
  | afterBlank, c :: rest =>
    if ends c || (afterBlank && isQuote c) then ([], c :: rest)
    else
      let r := takeRun (isBlank c) rest
      (c :: r.1, r.2)

/-- the run in front and the rest; the blanks after the run are gone -/
def take (cs : List Char) : List Char × List Char :=
  let (run, rest) := takeRun false cs
  ((run.reverse.dropWhile isBlank).reverse, rest)

end IndexCoordinator.Toml.Atom
