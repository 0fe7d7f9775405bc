import PresenceLink.Text.Utf8

/-!
# Tokens of JSON, one octet at a time

Each token is read by a small machine whose state says what has been read and
what is still owed. A machine is told one octet at a time and answers with its
next state, with the end of the token, or with a fault.
-/

namespace PresenceLink

namespace Json

/-- Why a document cannot be read: it ends too early, it is not JSON, or it is
JSON of another shape than asked for. -/
inductive Fault where
  | truncated
  | malformed
  | mismatch
  deriving DecidableEq, Repr

def isBlank (b : UInt8) : Bool := b == 32 || b == 9 || b == 10 || b == 13

def isDigit (b : UInt8) : Bool := 48 ≤ b && b ≤ 57

/-! ## Words -/

/-- What is owed of `null`, `true` or `false` behind its first letter. -/
def owedWord? (b : UInt8) : Option Bytes :=
  if b = 110 then some [117, 108, 108]
  else if b = 116 then some [114, 117, 101]
  else if b = 102 then some [97, 108, 115, 101]
  else none

/-! ## The form of numbers -/

/-- Where the reading of a number stands. -/
inductive NumberForm where
  /-- Behind the minus sign. -/
  | minus
  /-- Behind a zero that no digit may follow. -/
  | zero
  /-- Behind a digit of the whole part. -/
  | whole
  /-- Behind the point. -/
  | point
  /-- Behind a digit of the fraction. -/
  | fraction
  /-- Behind the mark of the exponent. -/
  | mark
  /-- Behind the sign of the exponent. -/
  | sign
  /-- Behind a digit of the exponent. -/
  | exponent
  deriving DecidableEq, Repr

namespace NumberForm

def ofFirst? (b : UInt8) : Option NumberForm :=
  if b = 45 then some minus
  else if b = 48 then some zero
  else if isDigit b then some whole
  else none

/-- A number may end here. -/
def complete : NumberForm → Bool
  | zero | whole | fraction | exponent => true
  | minus | point | mark | sign => false

/-- The form behind one more octet; nothing if the number ends before it. -/
def next (f : NumberForm) (b : UInt8) : Except Fault (Option NumberForm) :=
  match f with
  | minus =>
    if b = 48 then .ok (some zero) else if isDigit b then .ok (some whole) else .error .malformed
  | zero =>
    if isDigit b then .error .malformed
    else if b = 46 then .ok (some point)
    else if b = 101 ∨ b = 69 then .ok (some mark)
    else .ok none
  | whole =>
    if isDigit b then .ok (some whole)
    else if b = 46 then .ok (some point)
    else if b = 101 ∨ b = 69 then .ok (some mark)
    else .ok none
  | point => if isDigit b then .ok (some fraction) else .error .malformed
  | fraction =>
    if isDigit b then .ok (some fraction)
    else if b = 101 ∨ b = 69 then .ok (some mark)
    else .ok none
  | mark =>
    if b = 43 ∨ b = 45 then .ok (some sign)
    else if isDigit b then .ok (some exponent)
    else .error .malformed
  | sign => if isDigit b then .ok (some exponent) else .error .malformed
  | exponent => if isDigit b then .ok (some exponent) else .ok none

end NumberForm

/-! ## Texts -/

def hexValue? (b : UInt8) : Option Nat :=
  if 48 ≤ b && b ≤ 57 then some (b.toNat - 48)
  else if 97 ≤ b && b ≤ 102 then some (b.toNat - 87)
  else if 65 ≤ b && b ≤ 70 then some (b.toNat - 55)
  else none

/-- The number written by four hexadecimal digits, given latest first. -/
def codeUnit? : Bytes → Option Nat
  | [d, c, b, a] => do
    let a ← hexValue? a
    let b ← hexValue? b
    let c ← hexValue? c
    let d ← hexValue? d
    return ((a * 16 + b) * 16 + c) * 16 + d
  | _ => none

/-- The octet that a short escape stands for. -/
def shortEscape? (b : UInt8) : Option UInt8 :=
  if b = 34 then some 34
  else if b = 92 then some 92
  else if b = 47 then some 47
  else if b = 98 then some 8
  else if b = 102 then some 12
  else if b = 110 then some 10
  else if b = 114 then some 13
  else if b = 116 then some 9
  else none

def isLead (n : Nat) : Bool := 0xD800 ≤ n && n < 0xDC00

def isTrail (n : Nat) : Bool := 0xDC00 ≤ n && n < 0xE000

/-- The code point of a pair of surrogates. -/
def joinPair (lead trail : Nat) : Nat := (lead - 0xD800) * 1024 + (trail - 0xDC00) + 0x10000

/-- Where the reading of a text stands; `seen` holds its octets, latest first. -/
inductive TextState where
  | plain (seen : Bytes)
  /-- Behind a backslash. -/
  | escape (seen : Bytes)
  /-- Among the four digits of a code unit; `lead` is the one before it, if
  that was the first of a pair. -/
  | unit (seen : Bytes) (lead : Option Nat) (digits : Bytes)
  /-- Behind the first unit of a pair: a backslash is owed. -/
  | pairSlash (seen : Bytes) (lead : Nat)
  /-- Behind that backslash: the letter of a code unit is owed. -/
  | pairLetter (seen : Bytes) (lead : Nat)
  deriving DecidableEq, Repr

/-- A text goes on or has ended. -/
inductive TextStep where
  | more (state : TextState)
  | closed (text : String)
  deriving DecidableEq, Repr

namespace TextState

/-- Behind the opening quote. -/
def start : TextState := plain []

/-- Take in a code unit that stands for the character with its number. -/
def push (seen : Bytes) (n : Nat) : TextState :=
  plain ((Utf8.encodeChar (Char.ofNat n)).reverse ++ seen)

/-- Behind the fourth digit of a code unit. -/
def afterUnit (seen : Bytes) (lead : Option Nat) (digits : Bytes) : Except Fault TextStep :=
  match codeUnit? digits, lead with
  | none, _ => .error .malformed
  | some n, none =>
    if isTrail n then .error .malformed
    else if isLead n then .ok (.more (.pairSlash seen n))
    else .ok (.more (push seen n))
  | some n, some lead =>
    if isTrail n then .ok (.more (push seen (joinPair lead n))) else .error .malformed

/-- Read one octet of a text. Its octets have to be UTF-8 as a whole, which is
decided at the closing quote. -/
def next (s : TextState) (b : UInt8) : Except Fault TextStep :=
  match s with
  | plain seen =>
    if b = 34 then
      match Utf8.toString? seen.reverse with
      | some text => .ok (.closed text)
      | none => .error .malformed
    else if b = 92 then .ok (.more (.escape seen))
    else if b < 32 then .error .malformed
    else .ok (.more (.plain (b :: seen)))
  | escape seen =>
    if b = 117 then .ok (.more (.unit seen none []))
    else match shortEscape? b with
      | some c => .ok (.more (.plain (c :: seen)))
      | none => .error .malformed
  | unit seen lead digits =>
    if digits.length < 3 then .ok (.more (.unit seen lead (b :: digits)))
    else afterUnit seen lead (b :: digits)
  | pairSlash seen lead =>
    if b = 92 then .ok (.more (.pairLetter seen lead)) else .error .malformed
  | pairLetter seen lead =>
    if b = 117 then .ok (.more (.unit seen (some lead) [])) else .error .malformed

end TextState

end Json

end PresenceLink
