import IndexCoordinator.Toml.Text

/-!
# Reading TOML documents

`Document.read?` gives the top-level entries of a text, or none when the text is no TOML document
(version 1.1).  Readers take characters from the front and give the rest; brackets nest at most
`maxDepth` deep.
-/

namespace IndexCoordinator.Toml

/-- how deep arrays and tables in braces may nest -/
def maxDepth : Nat := 80

/-- how many keys dots may join -/
def maxKeys : Nat := 80

def skipBlanks (cs : List Char) : List Char := cs.dropWhile Atom.isBlank

/-- skip blanks, line ends and comments; a comment holds no controls other than the tab -/
def skipGaps : Bool → List Char → Option (List Char)
  | _, [] => some []
  | _, '\n' :: rest => skipGaps false rest
  | _, '\r' :: '\n' :: rest => skipGaps false rest
  | true, c :: rest => if Text.isPlain c then skipGaps true rest else none
  | false, '#' :: rest => skipGaps true rest
  | false, c :: rest => if Atom.isBlank c then skipGaps false rest else some (c :: rest)

def skipComment : List Char → Option (List Char)
  | [] => some []
  | '\n' :: rest => some rest
  | '\r' :: '\n' :: rest => some rest
  | c :: rest => if Text.isPlain c then skipComment rest else none

def endLine (cs : List Char) : Option (List Char) :=
  match skipBlanks cs with
  | [] => some []
  | '\n' :: rest => some rest
  | '\r' :: '\n' :: rest => some rest
  | '#' :: rest => skipComment rest
  | _ => none

def isBare (c : Char) : Bool := c.isAlphanum || c = '_' || c = '-'

def readKey (cs : List Char) : Option (String × List Char) :=
  match Text.readLine cs with
  | some r => some r
  | none =>
    let key := cs.takeWhile isBare
    if key.isEmpty then none else some (String.ofList key, cs.dropWhile isBare)

/-- so many keys at most, joined by dots, with blanks around the dots; the blanks after the last
key are gone -/
def readKeys : Nat → List Char → Option (List String × List Char)
  | 0, _ => none
  | limit + 1, cs =>
    match readKey cs with
    | none => none
    | some (key, rest) =>
      match skipBlanks rest with
      | '.' :: more => (readKeys limit (skipBlanks more)).map fun r => (key :: r.1, r.2)
      | rest => some ([key], rest)

def readPath (cs : List Char) : Option (List String × List Char) := readKeys maxKeys cs

/-- a path, an equals sign and the blanks around it -/
def readAssigned (cs : List Char) : Option (List String × List Char) :=
  match readPath cs with
  | some (path, '=' :: rest) => some (path, skipBlanks rest)
  | _ => none

/-- the same inside braces, where lines may end before and after the equals sign -/
def readSpread (cs : List Char) : Option (List String × List Char) :=
  match readPath cs with
  | none => none
  | some (path, rest) =>
    match skipGaps false rest with
    | some ('=' :: rest) => (skipGaps false rest).map fun rest => (path, rest)
    | _ => none

abbrev ValueReader := List Char → Option (Node × List Char)

/-- the items of an array after the opening bracket; a comma may stand after the last -/
def readItems (value : ValueReader) : Nat → List Char → Option (List Node × List Char)
  | 0, _ => none
  | fuel + 1, cs =>
    match skipGaps false cs with
    | some (']' :: rest) => some ([], rest)
    | some cs =>
      match value cs with
      | none => none
      | some (item, rest) =>
        match skipGaps false rest with
        | some (']' :: rest) => some ([item], rest)
        | some (',' :: rest) => (readItems value fuel rest).map fun r => (item :: r.1, r.2)
        | _ => none
    | none => none

def readEntries (value : ValueReader) :
    Nat → Entries → List Char → Option (Entries × List Char)
  | 0, _, _ => none
  | fuel + 1, es, cs =>
    match skipGaps false cs with
    | some ('\x7d' :: rest) => some (es, rest)
    | some cs =>
      match readSpread cs with
      | none => none
      | some (path, rest) =>
        match value rest with
        | none => none
        | some (item, rest) =>
          match define path item .inlined es, skipGaps false rest with
          | some (_, es), some ('\x7d' :: rest) => some (es, rest)
          | some (_, es), some (',' :: rest) => readEntries value fuel es rest
          | _, _ => none
    | none => none

/-- a value in front; the first argument bounds how deep brackets may still nest -/
def readValue : Nat → ValueReader
  | depth + 1, '[' :: rest =>
    (readItems (readValue depth) rest.length rest).map fun r => (.array r.1, r.2)
  | depth + 1, '\x7b' :: rest =>
    (readEntries (readValue depth) rest.length [] rest).map fun r => (.table .inlined r.1, r.2)
  | _, '"' :: rest => (Text.read ('"' :: rest)).map fun r => (.text r.1, r.2)
  | _, '\'' :: rest => (Text.read ('\'' :: rest)).map fun r => (.text r.1, r.2)
  | _, cs =>
    let (run, rest) := Atom.take cs
    (Atom.read run).map fun v => (v, rest)

/-- a document while it is read: its entries, and the path of the table that is open -/
structure Document where
  entries : Entries := []
  current : List String := []

namespace Document

def change (d : Document) (act : Change) : Option Entries := (act .header d.entries).map (·.2)

/-- one line that is neither empty nor a comment, with the changed document and the rest -/
def readLine (d : Document) : List Char → Option (Document × List Char)
  | '[' :: '[' :: rest =>
    match readPath (skipBlanks rest) with
    | some (path, ']' :: ']' :: rest) =>
      match d.change (openElement path), endLine rest with
      | some es, some rest => some (⟨es, path⟩, rest)
      | _, _ => none
    | _ => none
  | '[' :: rest =>
    match readPath (skipBlanks rest) with
    | some (path, ']' :: rest) =>
      match d.change (openTable path), endLine rest with
      | some es, some rest => some (⟨es, path⟩, rest)
      | _, _ => none
    | _ => none
  | cs =>
    match readAssigned cs with
    | none => none
    | some (path, rest) =>
      match readValue maxDepth rest with
      | none => none
      | some (value, rest) =>
        match d.change (descend false (define path value) d.current), endLine rest with
        | some es, some rest => some ({ d with entries := es }, rest)
        | _, _ => none

def readLines : Nat → Document → List Char → Option Document
  | 0, _, _ => none
  | fuel + 1, d, cs =>
    match skipGaps false cs with
    | none => none
    | some [] => some d
    | some cs =>
      match d.readLine cs with
      | none => none
      | some (d, rest) => readLines fuel d rest

/-- a byte order mark in front does not belong to the text -/
def dropMark : List Char → List Char
  | '\ufeff' :: rest => rest
  | cs => cs

/-- the entries of a document; none when the text is not a TOML document -/
def read? (source : String) : Option Entries :=
  let cs := dropMark source.toList
  (readLines (cs.length + 1) {} cs).map (·.entries)

end Document

end IndexCoordinator.Toml
