/-!
# UTF-8

Texts as octets. `encode` writes every character in its shortest form;
`decode?` accepts exactly such sequences and refuses overlong forms,
surrogates and stray or missing continuation octets.

* `decode?_encode`: what `encode` writes reads back.
-/

namespace PresenceLink

/-- Octets on the wire. -/
abbrev Bytes := List UInt8

namespace Utf8

def encodeChar (c : Char) : Bytes :=
  let n := c.toNat
  if n < 0x80 then [n.toUInt8]
  else if n < 0x800 then [(0xC0 + n / 64).toUInt8, (0x80 + n % 64).toUInt8]
  else if n < 0x10000 then
    [(0xE0 + n / 4096).toUInt8, (0x80 + n / 64 % 64).toUInt8, (0x80 + n % 64).toUInt8]
  else
    [(0xF0 + n / 262144).toUInt8, (0x80 + n / 4096 % 64).toUInt8,
      (0x80 + n / 64 % 64).toUInt8, (0x80 + n % 64).toUInt8]

def encode (cs : List Char) : Bytes := cs.flatMap encodeChar

def ofString (s : String) : Bytes := encode s.toList

/-- A continuation octet: no character starts here. -/
def isTail (b : UInt8) : Bool := 0x80 ≤ b.toNat && b.toNat < 0xC0

/-- The character with code point `n`, if `n` is at least `least`. -/
def scalar? (least n : Nat) : Option Char :=
  if least ≤ n ∧ n.isValidChar then some (Char.ofNat n) else none

/-- The first character of `bytes` and what follows it. -/
def decodeChar? : Bytes → Option (Char × Bytes)
  | [] => none
  | a :: rest =>
    if a.toNat < 0x80 then some (Char.ofNat a.toNat, rest)
    else if a.toNat < 0xC0 then none
    else if a.toNat < 0xE0 then
      match rest with
      | b :: rest =>
        if isTail b then
          (scalar? 0x80 ((a.toNat - 0xC0) * 64 + (b.toNat - 0x80))).map (·, rest)
        else none
      | _ => none
    else if a.toNat < 0xF0 then
      match rest with
      | b :: c :: rest =>
        if isTail b && isTail c then
          (scalar? 0x800
            ((a.toNat - 0xE0) * 4096 + (b.toNat - 0x80) * 64 + (c.toNat - 0x80))).map (·, rest)
        else none
      | _ => none
    else if a.toNat < 0xF8 then
      match rest with
      | b :: c :: d :: rest =>
        if isTail b && isTail c && isTail d then
          (scalar? 0x10000
            ((a.toNat - 0xF0) * 262144 + (b.toNat - 0x80) * 4096 + (c.toNat - 0x80) * 64 +
              (d.toNat - 0x80))).map (·, rest)
        else none
      | _ => none
    else none

theorem decodeChar?_shorter {bytes rest : Bytes} {c : Char}
    (h : decodeChar? bytes = some (c, rest)) : rest.length < bytes.length := by
  unfold decodeChar? at h
  split at h
  · cases h
  · rename_i a tail
    repeat' split at h
    all_goals
      simp only [reduceCtorEq, Option.some.injEq, Prod.mk.injEq, Option.map_eq_some_iff] at h
    all_goals grind

/-- The characters read so far, latest first, followed by those of `bytes`. -/
def decodeFrom (read : List Char) (bytes : Bytes) : Option (List Char) :=
  match bytes with
  | [] => some read.reverse
  | b :: tail =>
    match _ : decodeChar? (b :: tail) with
    | some (c, rest) => decodeFrom (c :: read) rest
    | none => none
termination_by bytes.length
decreasing_by exact decodeChar?_shorter (by assumption)

def decode? (bytes : Bytes) : Option (List Char) := decodeFrom [] bytes

def toString? (bytes : Bytes) : Option String := (decode? bytes).map String.ofList

/-! ## Laws of writing -/

theorem encode_nil : encode [] = [] := rfl

theorem encode_cons (c : Char) (cs : List Char) : encode (c :: cs) = encodeChar c ++ encode cs := rfl

theorem encode_append (a b : List Char) : encode (a ++ b) = encode a ++ encode b := by
  simp [encode]

theorem encodeChar_ne_nil (c : Char) : encodeChar c ≠ [] := by
  unfold encodeChar
  simp only
  split <;> (try split) <;> (try split) <;> simp

theorem isValidChar_toNat (c : Char) : c.toNat.isValidChar := c.valid

theorem ofNat_toNat (c : Char) : Char.ofNat c.toNat = c := by
  simp [Char.ofNat_toNat]

theorem toNat_lt (c : Char) : c.toNat < 0x110000 := by
  rcases isValidChar_toNat c with h | h
  · omega
  · exact h.2

theorem scalar?_toNat {least : Nat} {c : Char} (h : least ≤ c.toNat) :
    scalar? least c.toNat = some c := by
  rw [scalar?, if_pos ⟨h, isValidChar_toNat c⟩, ofNat_toNat]

theorem decodeChar?_encodeChar (c : Char) (rest : Bytes) :
    decodeChar? (encodeChar c ++ rest) = some (c, rest) := by
  have hlt := toNat_lt c
  have small : ∀ n, n < 256 → n.toUInt8.toNat = n := fun n h => by simp; omega
  unfold encodeChar
  simp only
  split
  · rename_i h
    simp only [List.cons_append, List.nil_append, decodeChar?, small c.toNat (by omega), h,
      ↓reduceIte, ofNat_toNat]
  split
  · rename_i h0 h
    have ha : (0xC0 + c.toNat / 64).toUInt8.toNat = 0xC0 + c.toNat / 64 := small _ (by omega)
    have hb : (0x80 + c.toNat % 64).toUInt8.toNat = 0x80 + c.toNat % 64 := small _ (by omega)
    have tb : isTail (0x80 + c.toNat % 64).toUInt8 = true := by
      simp only [isTail, hb, Bool.and_eq_true, decide_eq_true_eq]; omega
    have hn : (0xC0 + c.toNat / 64 - 0xC0) * 64 + (0x80 + c.toNat % 64 - 0x80) = c.toNat := by omega
    simp only [List.cons_append, List.nil_append, decodeChar?, ha, hb, tb, hn, ↓reduceIte,
      scalar?_toNat (Nat.le_of_not_lt h0), Option.map_some]
    rw [if_neg (by omega), if_neg (by omega), if_pos (by omega)]
  split
  · rename_i h0 h1 h
    have ha : (0xE0 + c.toNat / 4096).toUInt8.toNat = 0xE0 + c.toNat / 4096 := small _ (by omega)
    have hb : (0x80 + c.toNat / 64 % 64).toUInt8.toNat = 0x80 + c.toNat / 64 % 64 :=
      small _ (by omega)
    have hc : (0x80 + c.toNat % 64).toUInt8.toNat = 0x80 + c.toNat % 64 := small _ (by omega)
    have tb : isTail (0x80 + c.toNat / 64 % 64).toUInt8 = true := by
      simp only [isTail, hb, Bool.and_eq_true, decide_eq_true_eq]; omega
    have tc : isTail (0x80 + c.toNat % 64).toUInt8 = true := by
      simp only [isTail, hc, Bool.and_eq_true, decide_eq_true_eq]; omega
    have hn : (0xE0 + c.toNat / 4096 - 0xE0) * 4096 + (0x80 + c.toNat / 64 % 64 - 0x80) * 64 +
        (0x80 + c.toNat % 64 - 0x80) = c.toNat := by omega
    simp only [List.cons_append, List.nil_append, decodeChar?, ha, hb, hc, tb, tc, hn,
      Bool.and_true, ↓reduceIte, scalar?_toNat (Nat.le_of_not_lt h1), Option.map_some]
    rw [if_neg (by omega), if_neg (by omega), if_neg (by omega), if_pos (by omega)]
  · rename_i h0 h1 h2
    have ha : (0xF0 + c.toNat / 262144).toUInt8.toNat = 0xF0 + c.toNat / 262144 :=
      small _ (by omega)
    have hb : (0x80 + c.toNat / 4096 % 64).toUInt8.toNat = 0x80 + c.toNat / 4096 % 64 :=
      small _ (by omega)
    have hc : (0x80 + c.toNat / 64 % 64).toUInt8.toNat = 0x80 + c.toNat / 64 % 64 :=
      small _ (by omega)
    have hd : (0x80 + c.toNat % 64).toUInt8.toNat = 0x80 + c.toNat % 64 := small _ (by omega)
    have tb : isTail (0x80 + c.toNat / 4096 % 64).toUInt8 = true := by
      simp only [isTail, hb, Bool.and_eq_true, decide_eq_true_eq]; omega
    have tc : isTail (0x80 + c.toNat / 64 % 64).toUInt8 = true := by
      simp only [isTail, hc, Bool.and_eq_true, decide_eq_true_eq]; omega
    have td : isTail (0x80 + c.toNat % 64).toUInt8 = true := by
      simp only [isTail, hd, Bool.and_eq_true, decide_eq_true_eq]; omega
    have hn : (0xF0 + c.toNat / 262144 - 0xF0) * 262144 +
        (0x80 + c.toNat / 4096 % 64 - 0x80) * 4096 + (0x80 + c.toNat / 64 % 64 - 0x80) * 64 +
        (0x80 + c.toNat % 64 - 0x80) = c.toNat := by omega
    simp only [List.cons_append, List.nil_append, decodeChar?, ha, hb, hc, hd, tb, tc, td, hn,
      Bool.and_true, ↓reduceIte, scalar?_toNat (Nat.le_of_not_lt h2), Option.map_some]
    rw [if_neg (by omega), if_neg (by omega), if_neg (by omega), if_neg (by omega),
      if_pos (by omega)]

theorem decodeFrom_encodeChar (read : List Char) (c : Char) (rest : Bytes) :
    decodeFrom read (encodeChar c ++ rest) = decodeFrom (c :: read) rest := by
  have hd := decodeChar?_encodeChar c rest
  cases h : encodeChar c ++ rest with
  | nil => exact absurd (List.append_eq_nil_iff.1 h).1 (encodeChar_ne_nil c)
  | cons b tail =>
    rw [h] at hd
    rw [decodeFrom]
    split
    · rename_i c' rest' h'
      rw [hd] at h'
      cases h'
      rfl
    · rename_i h'
      rw [hd] at h'
      cases h'

theorem decodeFrom_encode (read cs : List Char) :
    decodeFrom read (encode cs) = some (read.reverse ++ cs) := by
  induction cs generalizing read with
  | nil => rw [encode_nil, decodeFrom]; simp
  | cons c cs ih => rw [encode_cons, decodeFrom_encodeChar, ih]; simp

theorem decode?_encode (cs : List Char) : decode? (encode cs) = some cs := by
  rw [decode?, decodeFrom_encode]; rfl

theorem toString?_ofString (s : String) : toString? (ofString s) = some s := by
  simp [toString?, ofString, decode?_encode, String.ofList_toList]

end Utf8

end PresenceLink
