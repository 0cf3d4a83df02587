/-!
# TOML documents as trees

A table knows how it came to be, since that decides who may add to it later: `define` and its
companions enforce that a key is given once and a table is defined once.
-/

namespace IndexCoordinator.Toml

/-- a floating point literal: its exact decimal value, or a special value -/
inductive FloatLiteral where
  | nan
  | infinite (negative : Bool)
  | finite (negative : Bool) (mantissa : Nat) (exponent : Int)
deriving DecidableEq, Repr

/-- how a table came to be -/
inductive TableKind where
  /-- by its own header, or the document itself -/
  | header
  /-- on the way of a longer header -/
  | implied
  /-- on the way of a dotted key, perhaps after a longer header -/
  | dotted
  /-- written in braces, and complete -/
  | inlined
deriving DecidableEq, Repr

/-- a value of a document -/
inductive Node where
  | text (value : String)
  /-- an integer literal; a malformed one that is let through denotes nothing -/
  | integer (value : Option Int)
  | float (value : FloatLiteral)
  | boolean (value : Bool)
  | dateTime
  | array (items : List Node)
  | table (kind : TableKind) (entries : List (String × Node))
  /-- an array of tables, each opened by a header of its own -/
  | tables (elements : List (TableKind × List (String × Node)))

abbrev Entries := List (String × Node)

def replace (es : Entries) (key : String) (value : Node) : Entries :=
  es.map fun e => if e.1 = key then (key, value) else e

/-- a change of one table, or a refusal -/
abbrev Change := TableKind → Entries → Option (TableKind × Entries)

/-- apply a change at the end of a path.  Missing tables are made on the way.  A path of a dotted
key does not enter tables that have a header of their own, and makes all others that it enters
tables of dotted keys; no path enters a table in braces; an array of tables is entered at its last
element. -/
def descend (dotted : Bool) (act : Change) : List String → Change
  | [], kind, es => act kind es
  | key :: path, kind, es =>
    match es.lookup key with
    | none =>
      match descend dotted act path (if dotted then .dotted else .implied) [] with
      | some (k, sub) => some (kind, es ++ [(key, .table k sub)])
      | none => none
    | some (.table k sub) =>
      if k = .inlined ∨ (dotted ∧ k = .header) then none
      else match descend dotted act path (if dotted then .dotted else k) sub with
        | some (k, sub) => some (kind, replace es key (.table k sub))
        | none => none
    | some (.tables elements) =>
      match elements.getLast? with
      | some (k, sub) =>
        match descend dotted act path k sub with
        | some last => some (kind, replace es key (.tables (elements.dropLast ++ [last])))
        | none => none
      | none => none
    | some _ => none

def assign (key : String) (value : Node) : Change := fun kind es =>
  match es.lookup key with
  | none => some (kind, es ++ [(key, value)])
  | some _ => none

def splitLast : List String → Option (List String × String)
  | [] => none
  | [key] => some ([], key)
  | key :: rest => (splitLast rest).map fun p => (key :: p.1, p.2)

/-- a key and value line inside a table.  The table in which the last part of a dotted key stands
must be one of dotted keys. -/
def define (path : List String) (value : Node) : Change := fun kind es =>
  match splitLast path with
  | none => none
  | some ([], key) => assign key value kind es
  | some (parents, key) =>
    let act : Change := fun k sub => if k = .dotted then assign key value k sub else none
    descend true act parents kind es

/-- a header opens a table that is new, or known only from longer headers -/
def openTable (path : List String) : Change := fun kind es =>
  match splitLast path with
  | none => none
  | some (parents, key) =>
    let act : Change := fun k sub =>
      match sub.lookup key with
      | none => some (k, sub ++ [(key, .table .header [])])
      | some (.table .implied inner) => some (k, replace sub key (.table .header inner))
      | some _ => none
    descend false act parents kind es

def openElement (path : List String) : Change := fun kind es =>
  match splitLast path with
  | none => none
  | some (parents, key) =>
    let act : Change := fun k sub =>
      match sub.lookup key with
      | none => some (k, sub ++ [(key, .tables [(.header, [])])])
      | some (.tables elements) =>
        some (k, replace sub key (.tables (elements ++ [(.header, [])])))
      | some _ => none
    descend false act parents kind es

end IndexCoordinator.Toml
