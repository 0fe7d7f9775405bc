import PresenceLink.Text.Fixed

/-!
# What a text of bounded size keeps

The ends of characters in the UTF-8 form of a text are those of its
beginnings. So cutting at the last such end within the limit keeps the longest
beginning that fits, and nothing of what the buffer held before shows.

* `isBoundary_encode_iff`: where a text can be cut;
* `longestPrefix_clip`: `clip` is the longest beginning that fits;
* `text_set`: storing a text keeps that much of it.
-/

namespace PresenceLink

/-- The longest beginning of a text that takes at most `n` octets. -/
structure LongestPrefix (n : Nat) (text start : String) : Prop where
  starts : start.toList <+: text.toList
  fits : (Utf8.ofString start).length ≤ n
  longest : ∀ p, p <+: text.toList → (Utf8.encode p).length ≤ n → p.length ≤ start.toList.length

namespace Utf8

/-- As many characters as fit into `n` octets. -/
def clipChars : Nat → List Char → List Char
  | _, [] => []
  | n, c :: cs =>
    if (encodeChar c).length ≤ n then c :: clipChars (n - (encodeChar c).length) cs else []

/-- A text cut to `n` octets. -/
def clip (n : Nat) (text : String) : String := String.ofList (clipChars n text.toList)

/-! ## Boundaries -/

/-- Only the first octet of a character is not a continuation octet. -/
theorem encodeChar_eq_cons (c : Char) :
    ∃ b tail, encodeChar c = b :: tail ∧ isTail b = false ∧ ∀ d ∈ tail, isTail d = true := by
  have hlt := toNat_lt c
  have small : ∀ n, n < 256 → n.toUInt8.toNat = n := fun n h => by simp; omega
  have head : ∀ n, n < 256 → n < 0x80 ∨ 0xC0 ≤ n → isTail n.toUInt8 = false := by
    intro n hn h
    simp only [isTail, small n hn, Bool.and_eq_false_iff, decide_eq_false_iff_not]
    omega
  have tail : ∀ n, n < 64 → isTail (0x80 + n).toUInt8 = true := by
    intro n hn
    simp only [isTail, small (0x80 + n) (by omega), Bool.and_eq_true, decide_eq_true_eq]
    omega
  have digit : ∀ n, n % 64 < 64 := fun n => Nat.mod_lt _ (by decide)
  unfold encodeChar
  simp only
  split
  · exact ⟨_, _, rfl, head _ (by omega) (by omega), by simp⟩
  split
  · refine ⟨_, _, rfl, head _ (by omega) (by omega), ?_⟩
    simp only [List.mem_singleton, forall_eq]
    exact tail _ (digit _)
  split
  · refine ⟨_, _, rfl, head _ (by omega) (by omega), ?_⟩
    simp only [List.mem_cons, List.not_mem_nil, or_false, forall_eq_or_imp, forall_eq]
    exact ⟨tail _ (digit _), tail _ (digit _)⟩
  · refine ⟨_, _, rfl, head _ (by omega) (by omega), ?_⟩
    simp only [List.mem_cons, List.not_mem_nil, or_false, forall_eq_or_imp, forall_eq]
    exact ⟨tail _ (digit _), tail _ (digit _), tail _ (digit _)⟩

theorem length_encodeChar_pos (c : Char) : 0 < (encodeChar c).length :=
  List.length_pos_iff.2 (encodeChar_ne_nil c)

theorem length_encode_cons (c : Char) (cs : List Char) :
    (encode (c :: cs)).length = (encodeChar c).length + (encode cs).length := by
  rw [encode_cons, List.length_append]

/-- A longer beginning takes more octets. -/
theorem length_encode_lt {p q : List Char} (h : p <+: q) (hlt : p.length < q.length) :
    (encode p).length < (encode q).length := by
  obtain ⟨rest, rfl⟩ := h
  cases rest with
  | nil => simp at hlt
  | cons c rest =>
    have hpos := length_encodeChar_pos c
    rw [encode_append, List.length_append, length_encode_cons]
    omega

end Utf8

namespace FixedText

open Utf8

theorem isBoundary_zero (bytes : Bytes) : isBoundary bytes 0 = true := rfl

/-- Text ends in front of a character. -/
theorem isBoundary_encodeChar (c : Char) (cs : List Char) :
    isBoundary (encodeChar c ++ encode cs) (encodeChar c).length = true := by
  have hpos := length_encodeChar_pos c
  unfold isBoundary
  rw [if_neg (by omega), List.getElem?_append_right (Nat.le_refl _), Nat.sub_self]
  cases cs with
  | nil => simp [encode_nil]
  | cons d cs =>
    obtain ⟨b, tail, hd, hb, -⟩ := encodeChar_eq_cons d
    rw [encode_cons, hd, List.cons_append, List.getElem?_cons_zero]
    simp [hb]

/-- No text ends within a character. -/
theorem isBoundary_within (c : Char) (bytes : Bytes) {i : Nat} (hi : 0 < i)
    (hlt : i < (encodeChar c).length) : isBoundary (encodeChar c ++ bytes) i = false := by
  obtain ⟨b, tail, hc, -, htail⟩ := encodeChar_eq_cons c
  obtain ⟨j, rfl⟩ := Nat.exists_eq_add_of_lt hi
  rw [hc] at hlt ⊢
  have hj : j < tail.length := by simpa using hlt
  have hget : (b :: tail ++ bytes)[0 + j + 1]? = some tail[j] := by
    rw [List.cons_append, List.getElem?_cons_succ, Nat.zero_add,
      List.getElem?_append_left hj, List.getElem?_eq_getElem hj]
  unfold isBoundary
  rw [if_neg (by omega), hget]
  simp [htail _ (List.getElem_mem hj)]

/-- Behind a character text ends where it ends in what follows. -/
theorem isBoundary_behind (c : Char) (bytes : Bytes) {i : Nat} (hi : 0 < i) :
    isBoundary (encodeChar c ++ bytes) ((encodeChar c).length + i) = isBoundary bytes i := by
  unfold isBoundary
  rw [if_neg (by omega), if_neg (by omega), List.getElem?_append_right (by omega),
    Nat.add_sub_cancel_left]
  cases bytes[i]? with
  | some b => rfl
  | none =>
    rw [List.length_append, Bool.eq_iff_iff, beq_iff_eq, beq_iff_eq]
    omega

/-- A text can be cut behind each of its beginnings and nowhere else. -/
theorem isBoundary_encode_iff (cs : List Char) (i : Nat) :
    isBoundary (encode cs) i = true ↔ ∃ p, p <+: cs ∧ (encode p).length = i := by
  induction cs generalizing i with
  | nil =>
    rw [encode_nil]
    constructor
    · intro h
      rcases Nat.eq_zero_or_pos i with rfl | hi
      · exact ⟨[], List.prefix_rfl, rfl⟩
      · rw [isBoundary, if_neg (by omega)] at h
        simp at h
        omega
    · rintro ⟨p, hp, rfl⟩
      rw [List.prefix_nil.1 hp]
      rfl
  | cons c cs ih =>
    have hpos := length_encodeChar_pos c
    constructor
    · intro h
      rcases Nat.eq_zero_or_pos i with rfl | hi
      · exact ⟨[], List.nil_prefix, rfl⟩
      rcases Nat.lt_or_ge i (encodeChar c).length with hlt | hge
      · rw [encode_cons, isBoundary_within c _ hi hlt] at h
        cases h
      obtain ⟨j, rfl⟩ := Nat.exists_eq_add_of_le hge
      have hj : isBoundary (encode cs) j = true := by
        rcases Nat.eq_zero_or_pos j with rfl | hj
        · exact isBoundary_zero _
        · rwa [encode_cons, isBoundary_behind c _ hj] at h
      obtain ⟨p, hp, rfl⟩ := (ih j).1 hj
      exact ⟨c :: p, (List.cons_prefix_cons).2 ⟨rfl, hp⟩, length_encode_cons c p⟩
    · rintro ⟨p, hp, rfl⟩
      cases p with
      | nil => exact isBoundary_zero _
      | cons d p =>
        obtain ⟨rfl, htail⟩ := List.cons_prefix_cons.1 hp
        rw [length_encode_cons, encode_cons]
        rcases Nat.eq_zero_or_pos (encode p).length with h0 | hp0
        · rw [h0]
          exact isBoundary_encodeChar d cs
        · rw [isBoundary_behind d _ hp0]
          exact (ih _).2 ⟨p, htail, rfl⟩

end FixedText

/-! ## The longest beginning -/

theorem LongestPrefix.unique {n : Nat} {text a b : String} (ha : LongestPrefix n text a)
    (hb : LongestPrefix n text b) : a = b := by
  have hab := hb.longest _ ha.starts ha.fits
  have hba := ha.longest _ hb.starts hb.fits
  have hlen : a.toList.length = b.toList.length := Nat.le_antisymm hab hba
  have hstart : a.toList <+: b.toList := List.prefix_of_prefix_length_le ha.starts hb.starts hab
  exact String.toList_inj.1 (hstart.eq_of_length hlen)

namespace Utf8

theorem clipChars_prefix (n : Nat) (cs : List Char) : clipChars n cs <+: cs := by
  induction cs generalizing n with
  | nil => exact List.prefix_rfl
  | cons c cs ih =>
    unfold clipChars
    split
    · exact List.cons_prefix_cons.2 ⟨rfl, ih _⟩
    · exact List.nil_prefix

theorem length_encode_clipChars (n : Nat) (cs : List Char) :
    (encode (clipChars n cs)).length ≤ n := by
  induction cs generalizing n with
  | nil => exact Nat.zero_le n
  | cons c cs ih =>
    unfold clipChars
    split
    · have hrest := ih (n - (encodeChar c).length)
      rw [length_encode_cons]
      omega
    · exact Nat.zero_le n

theorem length_le_clipChars {n : Nat} {p cs : List Char} (hp : p <+: cs)
    (hn : (encode p).length ≤ n) : p.length ≤ (clipChars n cs).length := by
  induction cs generalizing n p with
  | nil => rw [List.prefix_nil.1 hp]; exact Nat.zero_le _
  | cons c cs ih =>
    cases p with
    | nil => exact Nat.zero_le _
    | cons d p =>
      obtain ⟨rfl, htail⟩ := List.cons_prefix_cons.1 hp
      rw [length_encode_cons] at hn
      have hle : (encode p).length ≤ n - (encodeChar d).length := by omega
      have hrest := ih htail hle
      rw [clipChars, if_pos (by omega)]
      simpa using hrest

theorem longestPrefix_clip (n : Nat) (text : String) : LongestPrefix n text (clip n text) := by
  refine ⟨?_, ?_, ?_⟩
  · rw [clip, String.toList_ofList]
    exact clipChars_prefix n _
  · rw [clip, ofString, String.toList_ofList]
    exact length_encode_clipChars n _
  · intro p hp hn
    rw [clip, String.toList_ofList]
    exact length_le_clipChars hp hn

end Utf8

namespace FixedText

open Utf8

variable {n : Nat}

/-- A text is cut between two of its characters. -/
theorem exists_cut (n : Nat) (value : String) :
    ∃ p rest, p ++ rest = value.toList ∧ (encode p).length = cut n value := by
  have hboundary : isBoundary (encode value.toList) (cut n value) = true :=
    isBoundary_floorBoundary _ _
  obtain ⟨p, ⟨rest, hrest⟩, hlen⟩ := (isBoundary_encode_iff _ _).1 hboundary
  exact ⟨p, rest, hrest, hlen⟩

/-- What ends within the limit is no longer than what is kept. -/
theorem length_le_cut {value : String} {q : List Char} (hq : q <+: value.toList)
    (hn : (encode q).length ≤ n) : (encode q).length ≤ cut n value := by
  have hqlen : (encode q).length ≤ (Utf8.ofString value).length := by
    obtain ⟨rest, hrest⟩ := hq
    rw [Utf8.ofString, ← hrest, encode_append, List.length_append]
    omega
  exact le_floorBoundary _ (Nat.le_min.2 ⟨hqlen, hn⟩) ((isBoundary_encode_iff _ _).2 ⟨q, hq, rfl⟩)

/-- The octets that are kept are those of some characters. -/
theorem content_set_eq_encode (t : FixedText n) {value : String} {p rest : List Char}
    (hrest : p ++ rest = value.toList) (hlen : (encode p).length = cut n value) :
    (t.set value).content = encode p := by
  rw [content_set, ← hlen, Utf8.ofString, ← hrest, encode_append, List.take_left]

theorem longestPrefix_text_set (t : FixedText n) (value : String) :
    LongestPrefix n value (t.set value).text := by
  obtain ⟨p, rest, hrest, hlen⟩ := exists_cut n value
  have hcontent : (t.set value).content = encode p := content_set_eq_encode t hrest hlen
  have htext : (t.set value).text = String.ofList p := by
    rw [text, hcontent, toString?, decode?_encode]
    rfl
  rw [htext]
  refine ⟨?_, ?_, ?_⟩
  · rw [String.toList_ofList]
    exact ⟨rest, hrest⟩
  · rw [Utf8.ofString, String.toList_ofList, hlen]
    exact cut_le_capacity n value
  · intro q hq hn
    rw [String.toList_ofList]
    -- The octets of `q` end at a boundary within the limit, so not behind the cut.
    have hle : (encode q).length ≤ cut n value := length_le_cut hq hn
    rcases Nat.lt_or_ge p.length q.length with hlt | hge
    · have hpq : p <+: q :=
        List.prefix_of_prefix_length_le ⟨rest, hrest⟩ hq (Nat.le_of_lt hlt)
      have hlonger := length_encode_lt hpq hlt
      omega
    · exact hge

/-- Storing a text keeps the longest beginning that fits, whatever was stored
before. -/
theorem text_set (t : FixedText n) (value : String) : (t.set value).text = clip n value :=
  (longestPrefix_text_set t value).unique (longestPrefix_clip n value)

example : clip 3 "aéé" = "aé" := by decide +kernel

end FixedText

end PresenceLink
