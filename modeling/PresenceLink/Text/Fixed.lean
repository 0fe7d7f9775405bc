import PresenceLink.Text.Utf8

/-!
# Texts of bounded size

A `FixedText n` keeps a text of at most `n` octets in a buffer of `n` octets.
Storing cuts a longer text before the character that does not fit; octets
behind the stored text keep their old values.

* `floorBoundary_le`, `isBoundary_floorBoundary`: the cut is at most the limit
  and starts a character;
* `content_set`: what is stored is the text up to that cut.
-/

namespace PresenceLink

/-- Text in a buffer of `capacity` octets. Two values are equal when their
buffers and lengths are. -/
structure FixedText (capacity : Nat) where
  bytes : Bytes
  length : Nat
  size_bytes : bytes.length = capacity
  length_le : length ≤ capacity
  deriving DecidableEq

namespace FixedText

variable {n : Nat}

/-- No character of `bytes` is cut by ending before index `i`. -/
def isBoundary (bytes : Bytes) (i : Nat) : Bool :=
  if i = 0 then true
  else match bytes[i]? with
    | some b => !Utf8.isTail b
    | none => i == bytes.length

/-- The last boundary at or below an index. -/
def floorBoundary (bytes : Bytes) : Nat → Nat
  | 0 => 0
  | i + 1 => if isBoundary bytes (i + 1) then i + 1 else floorBoundary bytes i

theorem floorBoundary_le (bytes : Bytes) (i : Nat) : floorBoundary bytes i ≤ i := by
  induction i with
  | zero => exact Nat.le_refl 0
  | succ i ih =>
    rw [floorBoundary]
    split
    · exact Nat.le_refl _
    · exact Nat.le_trans ih (Nat.le_succ i)

theorem isBoundary_floorBoundary (bytes : Bytes) (i : Nat) :
    isBoundary bytes (floorBoundary bytes i) = true := by
  induction i with
  | zero => rfl
  | succ i ih =>
    rw [floorBoundary]
    split
    · assumption
    · exact ih

/-- Every boundary up to an index is at or below the last one. -/
theorem le_floorBoundary (bytes : Bytes) {i j : Nat} (hj : j ≤ i)
    (hb : isBoundary bytes j = true) : j ≤ floorBoundary bytes i := by
  induction i with
  | zero => rw [floorBoundary]; exact hj
  | succ i ih =>
    rw [floorBoundary]
    split
    · exact hj
    · rename_i hn
      rcases Nat.lt_or_eq_of_le hj with h | h
      · exact ih (Nat.le_of_lt_succ h)
      · rw [h] at hb
        exact absurd hb hn

/-- The empty text over a cleared buffer. -/
def empty : FixedText n where
  bytes := List.replicate n 0
  length := 0
  size_bytes := List.length_replicate
  length_le := Nat.zero_le n

instance : Inhabited (FixedText n) := ⟨empty⟩

/-- Where a text is cut to fit `n` octets. -/
def cut (n : Nat) (value : String) : Nat :=
  let bytes := Utf8.ofString value
  floorBoundary bytes (Nat.min bytes.length n)

theorem cut_le_size (n : Nat) (value : String) : cut n value ≤ (Utf8.ofString value).length :=
  Nat.le_trans (floorBoundary_le _ _) (Nat.min_le_left _ _)

theorem cut_le_capacity (n : Nat) (value : String) : cut n value ≤ n :=
  Nat.le_trans (floorBoundary_le _ _) (Nat.min_le_right _ _)

/-- Store as much of `value` as fits. -/
def set (t : FixedText n) (value : String) : FixedText n where
  bytes := (Utf8.ofString value).take (cut n value) ++ t.bytes.drop (cut n value)
  length := cut n value
  size_bytes := by
    have h1 := cut_le_size n value
    have h2 := cut_le_capacity n value
    have h3 := t.size_bytes
    simp only [List.length_append, List.length_take, List.length_drop]
    omega
  length_le := cut_le_capacity n value

/-- Whether storing `value` keeps all of it. -/
def fits (n : Nat) (value : String) : Bool := cut n value == (Utf8.ofString value).length

def ofString (value : String) : FixedText n := empty.set value

/-- Forget the text; the buffer stays as it is. -/
def clear (t : FixedText n) : FixedText n := { t with length := 0, length_le := Nat.zero_le n }

/-- The octets of the stored text. -/
def content (t : FixedText n) : Bytes := t.bytes.take t.length

/-- The stored text; empty if its octets are not UTF-8. -/
def text (t : FixedText n) : String := (Utf8.toString? t.content).getD ""

def isEmpty (t : FixedText n) : Bool := t.length == 0

theorem content_set (t : FixedText n) (value : String) :
    (t.set value).content = (Utf8.ofString value).take (cut n value) := by
  have h := cut_le_size n value
  simp only [content, set]
  rw [List.take_append_of_le_length (by simp; omega), List.take_take, Nat.min_self]

theorem length_content (t : FixedText n) : t.content.length = t.length := by
  have h1 := t.size_bytes
  have h2 := t.length_le
  simp only [content, List.length_take]
  omega

end FixedText

end PresenceLink
