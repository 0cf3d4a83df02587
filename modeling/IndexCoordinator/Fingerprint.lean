import IndexCoordinator.Id

/-!
# Fingerprints of index sets

A fingerprint is a 64-bit hash of the (name, version) pairs of an index set, taken in order of
the names, so that it does not depend on the order of registration.  It is a multiplicative
hash over words; a text enters it as one word, made of its bytes by folding multiplications.
Ordering the pairs first makes it a function of the set.
All arithmetic is modulo 2^64.
-/

namespace IndexCoordinator.Fingerprint

def factor : UInt64 := 0xf1357aea2e62a9c5

def seeds : UInt64 × UInt64 := (0x243f6a8885a308d3, 0x13198a2e03707344)

/-- the word against which a block's second half is set -/
def blockKey : UInt64 := 0xa4093822299f31d0

def add (h x : UInt64) : UInt64 := (h + x) * factor

def addAll (h : UInt64) (words : List UInt64) : UInt64 := words.foldl add h

/-- the two halves of the 128-bit product, one laid over the other -/
def fold (x y : UInt64) : UInt64 :=
  let p := x.toNat * y.toNat
  UInt64.ofNat (p % UInt64.size) ^^^ UInt64.ofNat (p / UInt64.size)

/-- a number from its bytes, the lowest first -/
def word : List UInt8 → UInt64
  | [] => 0
  | b :: rest => b.toUInt64 + (word rest <<< 8)

/-- the blocks of 16 bytes of a long text, each folded into the older of two running words -/
def blocks : Nat → UInt64 × UInt64 → List UInt8 → UInt64 × UInt64
  | 0, s, _ => s
  | n + 1, (s0, s1), bytes =>
    let t := fold (s0 ^^^ word (bytes.take 8)) (blockKey ^^^ word ((bytes.drop 8).take 8))
    blocks n (s1, t) (bytes.drop 16)

/-- the two running words after all bytes -/
def running (bytes : List UInt8) : UInt64 × UInt64 :=
  let n := bytes.length
  let (s0, s1) := seeds
  if n ≤ 16 then
    if 8 ≤ n then (s0 ^^^ word (bytes.take 8), s1 ^^^ word (bytes.drop (n - 8)))
    else if 4 ≤ n then (s0 ^^^ word (bytes.take 4), s1 ^^^ word (bytes.drop (n - 4)))
    else if 0 < n then
      (s0 ^^^ word (bytes.take 1),
        s1 ^^^ ((word (bytes.drop (n - 1)) <<< 8) ||| word ((bytes.drop (n / 2)).take 1)))
    else (s0, s1)
  else
    let (r0, r1) := blocks ((n - 1) / 16) (s0, s1) bytes
    (r0 ^^^ word ((bytes.drop (n - 16)).take 8), r1 ^^^ word (bytes.drop (n - 8)))

def ofBytes (bytes : List UInt8) : UInt64 :=
  let (s0, s1) := running bytes
  fold s0 s1 ^^^ UInt64.ofNat bytes.length

/-- the words that a text enters as: its bytes and an end mark -/
def nameWords (name : String) : List UInt64 := [ofBytes name.toUTF8.data.toList, 0xff]

def entryWords (entry : String × UInt32) : List UInt64 :=
  nameWords entry.1 ++ [entry.2.toUInt64]

def rotate (h : UInt64) : UInt64 := (h <<< 26) ||| (h >>> 38)

def ofEntries (entries : List (String × UInt32)) : UInt64 :=
  rotate (addAll (add 0 (UInt64.ofNat entries.length)) (entries.flatMap entryWords))

def entryLe (a b : String × UInt32) : Bool :=
  decide (a.1 < b.1) || (a.1 == b.1 && decide (a.2 ≤ b.2))

/-- the fingerprint of an index set: the hash of its pairs in order of the names -/
def ofVersions (versions : List (IndexId × UInt32)) : UInt64 :=
  ofEntries ((versions.map fun v => (v.1.name, v.2)).mergeSort entryLe)

end IndexCoordinator.Fingerprint
