import IndexCoordinator.Text.Hidden

/-!
# Quoted texts

A text as it is shown inside a message: in double quotes, with a backslash before quotes and
backslashes, short escapes for tab, line feed, carriage return and NUL, and the code point in
braces for every other character without a visible form.
-/

namespace IndexCoordinator.Text

def hex (n : Nat) : List Char := Nat.toDigits 16 n

/-- how one character is written inside quotes -/
def quotedChar (c : Char) : List Char :=
  if c = '"' then ['\\', '"']
  else if c = '\\' then ['\\', '\\']
  else if c = '\n' then ['\\', 'n']
  else if c = '\r' then ['\\', 'r']
  else if c = '\t' then ['\\', 't']
  else if c = '\x00' then ['\\', '0']
  else if c.toNat < 0x20 || (0x7e < c.toNat && isHidden c) then
    ['\\', 'u', '\x7b'] ++ hex c.toNat ++ ['\x7d']
  else [c]

def quoted (s : String) : String :=
  String.ofList ('"' :: (s.toList.flatMap quotedChar ++ ['"']))

theorem quotedChar_of_visible (c : Char) (h1 : 0x20 ≤ c.toNat) (h2 : c.toNat ≤ 0x7e)
    (hq : c ≠ '"') (hb : c ≠ '\\') : quotedChar c = [c] := by
  have hn : c ≠ '\n' := by rintro rfl; simp at h1
  have hr : c ≠ '\r' := by rintro rfl; simp at h1
  have ht : c ≠ '\t' := by rintro rfl; simp at h1
  have hz : c ≠ '\x00' := by rintro rfl; simp at h1
  have h3 : ¬ c.toNat < 0x20 := by omega
  have h4 : ¬ 0x7e < c.toNat := by omega
  simp [quotedChar, hq, hb, hn, hr, ht, hz, h3, h4]

end IndexCoordinator.Text
