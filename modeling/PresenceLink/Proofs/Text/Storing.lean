import PresenceLink.Proofs.Text.Buffer

/-!
# Storing a text, step by step

A text is stored in steps that could fail. The search for the place to cut could
pass below zero, the text or the buffer could be shorter than the cut, and the
octets that are read back could be no text. On a bare buffer, of which nothing
is known, each of these is a failure. None of them ever happens: a bare buffer
goes through the states of a text of bounded size, and what it is told to keep is
the longest beginning that fits.

* `search?_eq`: the search ends, and where;
* `fits_iff`, `le_cut_add_three`: what is cut, and how little of the buffer
  stays unused;
* `Bare.set?_bare`, `Bare.run?_bare`: no step fails, whatever was stored before;
* `set_keeps_longest_prefix`: what becomes of a text that is stored.
-/

namespace PresenceLink

/-- No character takes more than four octets. -/
theorem Utf8.length_encodeChar_le (c : Char) : (encodeChar c).length ≤ 4 := by
  unfold encodeChar
  simp only
  split
  · simp
  split
  · simp
  split <;> simp

namespace FixedText

open Utf8

variable {n : Nat}

/-! ## Where a text is cut -/

/-- Look for a boundary from an index on downwards; there is no index below
zero. -/
def search? (bytes : Bytes) : Nat → Option Nat
  | 0 => if isBoundary bytes 0 then some 0 else none
  | i + 1 => if isBoundary bytes (i + 1) then some (i + 1) else search? bytes i

theorem search?_eq (bytes : Bytes) (i : Nat) : search? bytes i = some (floorBoundary bytes i) := by
  induction i with
  | zero => rfl
  | succ i ih =>
    rw [search?, floorBoundary, ih]
    split <;> rfl

theorem isBoundary_length (bytes : Bytes) : isBoundary bytes bytes.length = true := by
  simp [isBoundary]

/-- A text is kept whole if and only if it fits. -/
theorem fits_iff (n : Nat) (value : String) :
    fits n value = true ↔ (Utf8.ofString value).length ≤ n := by
  rw [fits, beq_iff_eq]
  constructor
  · intro h
    rw [← h]
    exact cut_le_capacity n value
  · intro h
    apply Nat.le_antisymm (cut_le_size n value)
    exact le_floorBoundary _ (Nat.le_min.2 ⟨Nat.le_refl _, h⟩) (isBoundary_length _)

/-- Behind a text that was cut the next character would not have fitted. -/
theorem le_cut_add_three {value : String} (h : n < (Utf8.ofString value).length) :
    n ≤ cut n value + 3 := by
  obtain ⟨p, rest, hrest, hlen⟩ := exists_cut n value
  cases rest with
  | nil =>
    have hcap := cut_le_capacity n value
    rw [List.append_nil] at hrest
    rw [Utf8.ofString, ← hrest] at h
    omega
  | cons c rest =>
    have hprefix : p ++ [c] <+: value.toList := ⟨rest, by rw [← hrest]; simp⟩
    have hnext : (encode (p ++ [c])).length = cut n value + (encodeChar c).length := by
      rw [encode_append, List.length_append, hlen, encode_cons, encode_nil, List.append_nil]
    have hpos := length_encodeChar_pos c
    have hfour := length_encodeChar_le c
    -- If the next character fitted, a longer beginning would have been kept.
    have hover : n < cut n value + (encodeChar c).length := by
      by_contra hn
      have hle := length_le_cut hprefix (hnext ▸ Nat.le_of_not_lt hn)
      omega
    omega

/-! ## Steps that can fail -/

/-- The first octets, if there are as many. -/
def first? (count : Nat) (octets : Bytes) : Option Bytes :=
  if count ≤ octets.length then some (octets.take count) else none

theorem first?_of_le {count : Nat} {octets : Bytes} (h : count ≤ octets.length) :
    first? count octets = some (octets.take count) := by
  rw [first?, if_pos h]

/-- A buffer and the number of octets that are its text. Neither is known to
be in order. -/
structure Bare where
  octets : Bytes
  length : Nat
  deriving DecidableEq, Repr

namespace Bare

def zeroed (n : Nat) : Bare := { octets := List.replicate n 0, length := 0 }

/-- Store as much of `value` as fits, and tell whether that is all of it. -/
def set? (b : Bare) (value : String) : Option (Bool × Bare) := do
  let source := Utf8.ofString value
  let stop ← search? source (Nat.min source.length b.octets.length)
  let kept ← first? stop source
  let target ← first? stop b.octets
  some (stop == source.length,
    { octets := kept ++ b.octets.drop target.length, length := stop })

/-- The stored text. -/
def text? (b : Bare) : Option String := do
  let octets ← first? b.length b.octets
  toString? octets

def act? (b : Bare) : Op → Option Bare
  | .empty => some (zeroed b.octets.length)
  | .ofString value => ((zeroed b.octets.length).set? value).map Prod.snd
  | .set value => (b.set? value).map Prod.snd
  | .clear => some { b with length := 0 }

def run? (n : Nat) (ops : List Op) : Option Bare := ops.foldlM act? (zeroed n)

end Bare

/-- The buffer without what is known of it. -/
def bare (t : FixedText n) : Bare := { octets := t.bytes, length := t.length }

theorem bare_empty : (FixedText.empty : FixedText n).bare = Bare.zeroed n := rfl

namespace Bare

theorem set?_bare (t : FixedText n) (value : String) :
    t.bare.set? value = some (fits n value, (t.set value).bare) := by
  have hroom : cut n value ≤ t.bytes.length := by
    rw [t.size_bytes]
    exact cut_le_capacity n value
  have hsearch : search? (Utf8.ofString value)
      (Nat.min (Utf8.ofString value).length t.bytes.length) = some (cut n value) := by
    rw [search?_eq, t.size_bytes]
    rfl
  have hlength : (t.bytes.take (cut n value)).length = cut n value :=
    List.length_take_of_le hroom
  simp only [set?, bare, hsearch, first?_of_le (cut_le_size n value), first?_of_le hroom, hlength,
    Option.bind_eq_bind, Option.bind_some]
  rfl

theorem text?_bare {t : FixedText n} (h : t.Legible) : t.bare.text? = some t.text := by
  have hroom : t.length ≤ t.bytes.length := by
    rw [t.size_bytes]
    exact t.length_le
  have hread : toString? t.content = some t.text := by
    rw [← h]
    exact toString?_ofString t.text
  simp only [text?, bare, first?_of_le hroom, Option.bind_eq_bind, Option.bind_some]
  exact hread

theorem act?_bare (t : FixedText n) (op : Op) : t.bare.act? op = some (t.act op).bare := by
  have hzeroed : zeroed t.bare.octets.length = (FixedText.empty : FixedText n).bare := by
    rw [bare_empty]
    exact congrArg zeroed t.size_bytes
  cases op with
  | empty => rw [act?, hzeroed]; rfl
  | ofString value => rw [act?, hzeroed, set?_bare]; rfl
  | set value => rw [act?, set?_bare]; rfl
  | clear => rfl

/-- A bare buffer does not fail on the way. -/
theorem run?_bare (ops : List Op) : run? n ops = some (FixedText.run ops : FixedText n).bare := by
  have hfrom : ∀ t : FixedText n,
      ops.foldlM act? t.bare = some (ops.foldl FixedText.act t).bare := by
    induction ops with
    | nil => exact fun t => rfl
    | cons op ops ih =>
      intro t
      rw [List.foldlM_cons, act?_bare]
      exact ih (t.act op)
  exact hfrom FixedText.empty

end Bare

/-- **Storing keeps the longest beginning that fits.** Whatever was done to a
buffer before, storing a text keeps its longest beginning that takes no more
octets than there are, which ends behind a character; the length is that of the
beginning. The text is kept whole if and only if it fits, and of a buffer in
which it was cut at most three octets stay unused. No step on the way fails, be
it the search for the place to cut, the copying or the reading of the text. -/
theorem set_keeps_longest_prefix (n : Nat) (ops : List Op) (value : String) :
    let t : FixedText n := run ops
    let u := t.set value
    let octets := Utf8.ofString value
    LongestPrefix n value u.text ∧
      Utf8.ofString u.text = octets.take u.length ∧ isBoundary octets u.length = true ∧
      u.length = (Utf8.ofString u.text).length ∧
      (fits n value = true ↔ octets.length ≤ n) ∧
      (octets.length ≤ n ∨ n ≤ u.length + 3) ∧
      Bare.run? n ops = some t.bare ∧ t.bare.text? = some t.text ∧
      t.bare.set? value = some (fits n value, u.bare) ∧ u.bare.text? = some u.text := by
  intro t u octets
  have hlegible : u.Legible := legible_set t value
  refine ⟨longestPrefix_text_set t value, ?_, isBoundary_floorBoundary _ _, ?_, fits_iff n value,
    ?_, Bare.run?_bare ops, Bare.text?_bare (legible_run ops), Bare.set?_bare t value,
    Bare.text?_bare hlegible⟩
  · rw [hlegible]
    exact content_set t value
  · rw [hlegible, length_content]
  · rcases Nat.lt_or_ge n octets.length with hlong | hshort
    · exact Or.inr (le_cut_add_three hlong)
    · exact Or.inl hshort

example : (FixedText.ofString "aéé" : FixedText 4).bare.text? = some "aé" := by decide +kernel

end FixedText

end PresenceLink
