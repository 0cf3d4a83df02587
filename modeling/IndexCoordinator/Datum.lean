import IndexCoordinator.Decimal.Shortest
import IndexCoordinator.Text.Quoted

/-!
# Data

A `Datum` is a value that is passed through without a look at it: what a caller puts into a
promise, or what a task body returns.  `Datum.compact` is its text without blanks.
-/

namespace IndexCoordinator

/-- a value that is passed through; a zero among the reals has a sign too -/
inductive Datum where
  | null
  | boolean (value : Bool)
  | integer (value : Int)
  | real (negative : Bool) (magnitude : Decimal.Binary64)
  | text (value : String)
  | list (items : List Datum)
  | record (fields : List (String × Datum))
deriving Inhabited, Repr

namespace Datum

def hex4 (n : Nat) : List Char :=
  let ds := Text.hex n
  List.replicate (4 - ds.length) '0' ++ ds

def compactChar (c : Char) : List Char :=
  if c = '"' then ['\\', '"']
  else if c = '\\' then ['\\', '\\']
  else if c = '\x08' then ['\\', 'b']
  else if c = '\x0c' then ['\\', 'f']
  else if c = '\n' then ['\\', 'n']
  else if c = '\r' then ['\\', 'r']
  else if c = '\t' then ['\\', 't']
  else if c.toNat < 0x20 then ['\\', 'u'] ++ hex4 c.toNat
  else [c]

def compactText (s : String) : String :=
  String.ofList ('"' :: (s.toList.flatMap compactChar ++ ['"']))

/-- reals always have a point or an exponent; they have an exponent when they are below 0.00001 or
have more than 16 digits before the point -/
def realStyle : Decimal.Style := ⟨some (-4), some 16, true, .toEven⟩

mutual

def compact : Datum → String
  | .null => "null"
  | .boolean b => if b then "true" else "false"
  | .integer n => toString n
  | .real negative v => v.render realStyle negative
  | .text s => compactText s
  | .list items => "[" ++ ",".intercalate (compactItems items) ++ "]"
  | .record fields => "\x7b" ++ ",".intercalate (compactFields fields) ++ "\x7d"

def compactItems : List Datum → List String
  | [] => []
  | d :: rest => compact d :: compactItems rest

def compactFields : List (String × Datum) → List String
  | [] => []
  | (k, d) :: rest => (compactText k ++ ":" ++ compact d) :: compactFields rest

end

end Datum

end IndexCoordinator
