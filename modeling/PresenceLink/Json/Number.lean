import PresenceLink.Json.Token

/-!
# The value of a written number

A whole number without fraction and exponent has an integer value, unless it
is the negative zero. Any other number is real; it is refused if it is larger
than the largest double.

Magnitudes are decided on 64 bits of significand and a power of ten, each
rounded to 53 bits.

* `roundTo53_of_lt`: small numbers are not rounded.
-/

namespace PresenceLink

namespace Json

def digitValue (b : UInt8) : Nat := b.toNat - 48

/-- The leading digits and what follows them. -/
def splitDigits (bs : Bytes) : Bytes × Bytes := (bs.takeWhile isDigit, bs.dropWhile isDigit)

def wholeValue (ds : Bytes) : Nat := ds.foldl (fun n b => n * 10 + digitValue b) 0

/-- A significand of at most 64 bits and a power of ten. -/
structure Scaled where
  significand : Nat
  exponent : Int
  deriving DecidableEq, Repr

def significandLimit : Nat := 18446744073709551616

/-- Digits of the whole part. Behind the first digit that does not fit, each
digit only raises the exponent. -/
def scaleWhole : Scaled → Bytes → Scaled
  | s, [] => s
  | s, b :: rest =>
    if s.significand * 10 + digitValue b < significandLimit then
      scaleWhole { s with significand := s.significand * 10 + digitValue b } rest
    else { s with exponent := s.exponent + (rest.length + 1) }

/-- Digits of the fraction. The first digit that does not fit and those behind
it are dropped. -/
def scaleFraction : Scaled → Bytes → Scaled
  | s, [] => s
  | s, b :: rest =>
    if s.significand * 10 + digitValue b < significandLimit then
      scaleFraction
        { significand := s.significand * 10 + digitValue b, exponent := s.exponent - 1 } rest
    else s

/-- The nearest number with at most 53 significant bits, an even one on a tie. -/
def roundTo53 (n : Nat) : Nat :=
  if n < 9007199254740992 then n
  else
    let unit := Nat.pow 2 (Nat.log2 n - 52)
    let q := n / unit
    let r := n % unit
    if 2 * r < unit then q * unit
    else if unit < 2 * r then (q + 1) * unit
    else (q + q % 2) * unit

theorem roundTo53_of_lt {n : Nat} (h : n < 9007199254740992) : roundTo53 n = n := by
  rw [roundTo53, if_pos h]

/-- Half way from the largest double to the next power of two; what is not
below it is infinite. -/
def overflowBound : Nat := Nat.pow 2 1024 - Nat.pow 2 970

def Scaled.overflows (s : Scaled) : Bool :=
  if s.significand = 0 ∨ s.exponent < 0 then false
  else if 308 < s.exponent then true
  else overflowBound ≤ roundTo53 s.significand * roundTo53 (Nat.pow 10 s.exponent.toNat)

/-- A number taken apart: its sign, the digits of its whole part and fraction,
and its exponent. -/
structure NumberParts where
  negative : Bool
  whole : Bytes
  fraction : Option Bytes
  exponent : Option Int
  deriving DecidableEq, Repr

/-- The digits behind the point, if there is one, and what follows them. -/
def splitFraction : Bytes → Option Bytes × Bytes
  | [] => (none, [])
  | b :: rest =>
    if b = 46 then (some (splitDigits rest).1, (splitDigits rest).2) else (none, b :: rest)

/-- The exponent, if there is one. -/
def readExponent : Bytes → Option Int
  | [] => none
  | [_] => none
  | _ :: s :: rest =>
    if s = 45 then some (-(wholeValue rest : Int))
    else if s = 43 then some (wholeValue rest)
    else some (wholeValue (s :: rest))

/-- Take apart the octets of a well-formed number. -/
def NumberParts.ofBytes (bs : Bytes) : NumberParts :=
  let unsigned := if bs.head? = some 45 then bs.drop 1 else bs
  let (whole, behind) := splitDigits unsigned
  let (fraction, behind) := splitFraction behind
  { negative := bs.head? = some 45, whole, fraction, exponent := readExponent behind }

def NumberParts.scaled (p : NumberParts) : Scaled :=
  let s := scaleFraction (scaleWhole ⟨0, 0⟩ p.whole) (p.fraction.getD [])
  { s with exponent := s.exponent + p.exponent.getD 0 }

/-- The integer that a well-formed number stands for; nothing if it is real. -/
def integerOf (bs : Bytes) : Except Fault (Option Int) :=
  let p := NumberParts.ofBytes bs
  if p.scaled.overflows then .error .malformed
  else if p.fraction.isSome || p.exponent.isSome then .ok none
  else if p.negative then
    if wholeValue p.whole = 0 then .ok none else .ok (some (-(wholeValue p.whole : Int)))
  else .ok (some (wholeValue p.whole))

/-- The 32-bit integer that a well-formed number stands for. -/
def int32Of (bs : Bytes) : Except Fault Int32 :=
  match integerOf bs with
  | .error e => .error e
  | .ok none => .error .mismatch
  | .ok (some n) =>
    if -2147483648 ≤ n ∧ n < 2147483648 then .ok (Int32.ofInt n) else .error .mismatch

end Json

end PresenceLink
