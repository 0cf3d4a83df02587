import IndexCoordinator.Toml.Atom

/-!
# Texts in quotes

The four kinds of quoted text.  Each reader starts after the opening quotes and gives the content
and what follows the closing quotes.
-/

namespace IndexCoordinator.Toml.Text

/-- whether a character may stand in a line as it is: no control other than the tab -/
def isPlain (c : Char) : Bool := c = '\t' || (0x20 ≤ c.toNat && c.toNat ≠ 0x7f)

def scalar (n : Nat) : Option Char := if n.isValidChar then some (Char.ofNat n) else none

def coded (ds : List Char) : Option Char :=
  if ds.all Atom.isHex then scalar (Atom.number 16 ds) else none

def escaped : Char → Option Char
  | 'b' => some '\x08'
  | 't' => some '\t'
  | 'n' => some '\n'
  | 'f' => some '\x0c'
  | 'r' => some '\r'
  | 'e' => some '\x1b'
  | '"' => some '"'
  | '\\' => some '\\'
  | _ => none

def push (c : Option Char) (r : Option (List Char × List Char)) :
    Option (List Char × List Char) :=
  match c, r with
  | some c, some (s, rest) => some (c :: s, rest)
  | _, _ => none

def basic : List Char → Option (List Char × List Char)
  | [] => none
  | '"' :: rest => some ([], rest)
  | '\\' :: 'x' :: a :: b :: rest => push (coded [a, b]) (basic rest)
  | '\\' :: 'u' :: a :: b :: c :: d :: rest => push (coded [a, b, c, d]) (basic rest)
  | '\\' :: 'U' :: a :: b :: c :: d :: e :: f :: g :: h :: rest =>
    push (coded [a, b, c, d, e, f, g, h]) (basic rest)
  | '\\' :: c :: rest => push (escaped c) (basic rest)
  | c :: rest => if isPlain c && c ≠ '\\' then push (some c) (basic rest) else none

/-- a text in single quotes on one line, taken as it is -/
def literal : List Char → Option (List Char × List Char)
  | [] => none
  | '\'' :: rest => some ([], rest)
  | c :: rest => if isPlain c then push (some c) (literal rest) else none

def endsLine (cs : List Char) : Bool :=
  match cs.dropWhile Atom.isBlank with
  | '\n' :: _ => true
  | '\r' :: '\n' :: _ => true
  | _ => false

/-- a text in triple double quotes.  A backslash at the end of a line swallows the blanks and
line ends that follow (`gap`); up to two quotes may stand before the closing three. -/
def multiBasic : Bool → List Char → Option (List Char × List Char)
  | _, [] => none
  | true, ' ' :: rest => multiBasic true rest
  | true, '\t' :: rest => multiBasic true rest
  | true, '\n' :: rest => multiBasic true rest
  | true, '\r' :: '\n' :: rest => multiBasic true rest
  | _, '"' :: '"' :: '"' :: '"' :: '"' :: rest => some (['"', '"'], rest)
  | _, '"' :: '"' :: '"' :: '"' :: rest => some (['"'], rest)
  | _, '"' :: '"' :: '"' :: rest => some ([], rest)
  | _, '\\' :: 'x' :: a :: b :: rest => push (coded [a, b]) (multiBasic false rest)
  | _, '\\' :: 'u' :: a :: b :: c :: d :: rest =>
    push (coded [a, b, c, d]) (multiBasic false rest)
  | _, '\\' :: 'U' :: a :: b :: c :: d :: e :: f :: g :: h :: rest =>
    push (coded [a, b, c, d, e, f, g, h]) (multiBasic false rest)
  | _, '\\' :: c :: rest =>
    if endsLine (c :: rest) then multiBasic true (c :: rest)
    else push (escaped c) (multiBasic false rest)
  | _, '\r' :: '\n' :: rest => push (some '\r') (push (some '\n') (multiBasic false rest))
  | _, c :: rest =>
    if (isPlain c && c ≠ '\\') || c = '\n' then push (some c) (multiBasic false rest) else none

def multiLiteral : List Char → Option (List Char × List Char)
  | [] => none
  | '\'' :: '\'' :: '\'' :: '\'' :: '\'' :: rest => some (['\'', '\''], rest)
  | '\'' :: '\'' :: '\'' :: '\'' :: rest => some (['\''], rest)
  | '\'' :: '\'' :: '\'' :: rest => some ([], rest)
  | '\r' :: '\n' :: rest => push (some '\r') (push (some '\n') (multiLiteral rest))
  | c :: rest => if isPlain c || c = '\n' then push (some c) (multiLiteral rest) else none

def dropLineEnd : List Char → List Char
  | '\n' :: rest => rest
  | '\r' :: '\n' :: rest => rest
  | cs => cs

def readLine : List Char → Option (String × List Char)
  | '"' :: rest => (basic rest).map fun r => (String.ofList r.1, r.2)
  | '\'' :: rest => (literal rest).map fun r => (String.ofList r.1, r.2)
  | _ => none

def read : List Char → Option (String × List Char)
  | '"' :: '"' :: '"' :: rest =>
    (multiBasic false (dropLineEnd rest)).map fun r => (String.ofList r.1, r.2)
  | '\'' :: '\'' :: '\'' :: rest =>
    (multiLiteral (dropLineEnd rest)).map fun r => (String.ofList r.1, r.2)
  | cs => readLine cs

end IndexCoordinator.Toml.Text
