import PresenceLink.Text.Printable

/-!
# Quoted texts

A text in double quotes for people to read: the quote, the backslash and
characters that are not printable are escaped.
-/

namespace PresenceLink

namespace Quoted

def hexDigit (n : Nat) : Char :=
  if n < 10 then Char.ofNat (48 + n) else Char.ofNat (87 + n)

/-- Lower-case hexadecimal digits in front of those already written. -/
def hexDigitsOnto : Nat → Nat → List Char → List Char
  | 0, _, written => written
  | fuel + 1, n, written =>
    if n < 16 then hexDigit n :: written
    else hexDigitsOnto fuel (n / 16) (hexDigit (n % 16) :: written)

/-- A code point in hexadecimal, without leading zeros. -/
def hex (c : Char) : List Char := hexDigitsOnto 8 c.toNat []

/-- How one character is written. An apostrophe stands for itself. -/
def escape (c : Char) : List Char :=
  if c = '"' then ['\\', '"']
  else if c = '\\' then ['\\', '\\']
  else if c = '\n' then ['\\', 'n']
  else if c = '\t' then ['\\', 't']
  else if c = '\r' then ['\\', 'r']
  else if c = '\x00' then ['\\', '0']
  else if Printable.isPrintable c then [c]
  else ['\\', 'u', '\x7b'] ++ hex c ++ ['\x7d']

/-- The text in quotes. -/
def text (s : String) : String :=
  String.ofList ('"' :: (s.toList.flatMap escape ++ ['"']))

end Quoted

end PresenceLink
