import PresenceLink.Proofs.Text.Prefix

/-!
# Only UTF-8 is read as text

The decoder accepts nothing but what the encoder writes: what is read as a text
is the UTF-8 form of that text. So a text has one UTF-8 form, and octets that
are not the form of any text are refused, whatever is wrong with them.

* `decodeChar?_eq_some_iff`: a character is read from its own octets;
* `decode?_eq_some_iff`: so is a text;
* `encodeChar_append_inj`: a character ends where it ends, whatever follows.
-/

namespace PresenceLink.Utf8

theorem toUInt8_eq_of_toNat {b : UInt8} {n : Nat} (h : b.toNat = n) : n.toUInt8 = b := by
  subst h
  simp

theorem toNat_ofNat {n : Nat} (h : n.isValidChar) : (Char.ofNat n).toNat = n := by
  rw [Char.ofNat, dif_pos h]
  rfl

theorem toNat_of_scalar? {least n : Nat} {c : Char} (h : scalar? least n = some c) :
    c.toNat = n ∧ least ≤ n := by
  unfold scalar? at h
  split at h
  · rename_i hn
    cases h
    exact ⟨toNat_ofNat hn.2, hn.1⟩
  · cases h

theorem isTail_iff {b : UInt8} : isTail b = true ↔ 0x80 ≤ b.toNat ∧ b.toNat < 0xC0 := by
  simp [isTail]

theorem encodeChar_ascii {b : UInt8} (h : b.toNat < 128) :
    encodeChar (Char.ofNat b.toNat) = [b] := by
  have hn : (Char.ofNat b.toNat).toNat = b.toNat := toNat_ofNat (Or.inl (by omega))
  simp only [encodeChar, hn, if_pos h, toUInt8_eq_of_toNat rfl]

theorem encodeChar_of_decodeChar? {bytes rest : Bytes} {c : Char}
    (h : decodeChar? bytes = some (c, rest)) : bytes = encodeChar c ++ rest := by
  unfold decodeChar? at h
  split at h
  · cases h
  rename_i a tail
  split at h
  · rename_i ha
    cases h
    rw [encodeChar_ascii ha]
    rfl
  split at h
  · cases h
  split at h
  · split at h
    · rename_i b rest
      split at h
      · rename_i hb
        obtain ⟨c, hc, he⟩ := Option.map_eq_some_iff.1 h
        cases he
        obtain ⟨hn, hleast⟩ := toNat_of_scalar? hc
        rw [isTail_iff] at hb
        have h0 : (0xC0 + c.toNat / 64).toUInt8 = a := toUInt8_eq_of_toNat (by omega)
        have h1 : (0x80 + c.toNat % 64).toUInt8 = b := toUInt8_eq_of_toNat (by omega)
        simp only [encodeChar, h0, h1]
        rw [if_neg (by omega), if_pos (by omega)]
        rfl
      · cases h
    · cases h
  split at h
  · split at h
    · rename_i b d rest
      split at h
      · rename_i hb
        obtain ⟨c, hc, he⟩ := Option.map_eq_some_iff.1 h
        cases he
        obtain ⟨hn, hleast⟩ := toNat_of_scalar? hc
        rw [Bool.and_eq_true, isTail_iff, isTail_iff] at hb
        have h0 : (0xE0 + c.toNat / 4096).toUInt8 = a := toUInt8_eq_of_toNat (by omega)
        have h1 : (0x80 + c.toNat / 64 % 64).toUInt8 = b := toUInt8_eq_of_toNat (by omega)
        have h2 : (0x80 + c.toNat % 64).toUInt8 = d := toUInt8_eq_of_toNat (by omega)
        simp only [encodeChar, h0, h1, h2]
        rw [if_neg (by omega), if_neg (by omega), if_pos (by omega)]
        rfl
      · cases h
    · cases h
  split at h
  · split at h
    · rename_i b d e rest
      split at h
      · rename_i hb
        obtain ⟨c, hc, he⟩ := Option.map_eq_some_iff.1 h
        cases he
        obtain ⟨hn, hleast⟩ := toNat_of_scalar? hc
        rw [Bool.and_eq_true, Bool.and_eq_true, isTail_iff, isTail_iff, isTail_iff] at hb
        have h0 : (0xF0 + c.toNat / 262144).toUInt8 = a := toUInt8_eq_of_toNat (by omega)
        have h1 : (0x80 + c.toNat / 4096 % 64).toUInt8 = b := toUInt8_eq_of_toNat (by omega)
        have h2 : (0x80 + c.toNat / 64 % 64).toUInt8 = d := toUInt8_eq_of_toNat (by omega)
        have h3 : (0x80 + c.toNat % 64).toUInt8 = e := toUInt8_eq_of_toNat (by omega)
        simp only [encodeChar, h0, h1, h2, h3]
        rw [if_neg (by omega), if_neg (by omega), if_neg (by omega)]
        rfl
      · cases h
    · cases h
  · cases h

/-- A character is read from its own octets, whatever follows them. -/
theorem decodeChar?_eq_some_iff {bytes rest : Bytes} {c : Char} :
    decodeChar? bytes = some (c, rest) ↔ bytes = encodeChar c ++ rest := by
  refine ⟨encodeChar_of_decodeChar?, ?_⟩
  rintro rfl
  exact decodeChar?_encodeChar c rest

theorem encodeChar_append_inj {c d : Char} {rest rest' : Bytes}
    (h : encodeChar c ++ rest = encodeChar d ++ rest') : c = d ∧ rest = rest' := by
  have hread := decodeChar?_encodeChar c rest
  rw [h, decodeChar?_encodeChar] at hread
  cases hread
  exact ⟨rfl, rfl⟩

theorem encodeChar_append_ofString (c : Char) (s : String) :
    encodeChar c ++ ofString s = ofString (String.ofList (c :: s.toList)) := by
  rw [ofString, ofString, String.toList_ofList, encode_cons]

/-- ASCII may stand before any text. -/
theorem ascii_append (octets : Bytes) (h : ∀ b ∈ octets, b.toNat < 128) (s : String) :
    ∃ s', octets ++ ofString s = ofString s' := by
  induction octets with
  | nil => exact ⟨s, rfl⟩
  | cons b octets ih =>
    obtain ⟨hb, hoctets⟩ := List.forall_mem_cons.1 h
    obtain ⟨s', hs'⟩ := ih hoctets
    refine ⟨String.ofList (Char.ofNat b.toNat :: s'.toList), ?_⟩
    rw [← encodeChar_append_ofString, encodeChar_ascii hb, List.cons_append, hs']
    rfl

theorem encode_of_decodeFrom {read cs : List Char} {bytes : Bytes}
    (h : decodeFrom read bytes = some cs) : encode read.reverse ++ bytes = encode cs := by
  induction read, bytes using decodeFrom.induct with
  | case1 read =>
    rw [decodeFrom] at h
    cases h
    exact List.append_nil _
  | case2 read b tail c rest hchar ih =>
    rw [decodeFrom] at h
    split at h
    · rename_i c' rest' hchar'
      rw [hchar] at hchar'
      cases hchar'
      rw [← ih h, decodeChar?_eq_some_iff.1 hchar, List.reverse_cons, encode_append, encode_cons,
        encode_nil, List.append_nil, List.append_assoc]
    · cases h
  | case3 read b tail hchar =>
    rw [decodeFrom] at h
    split at h
    · rename_i hchar'
      rw [hchar] at hchar'
      cases hchar'
    · cases h

/-- **A text is read from its UTF-8 form and from no other octets.** -/
theorem decode?_eq_some_iff {bytes : Bytes} {cs : List Char} :
    decode? bytes = some cs ↔ bytes = encode cs := by
  constructor
  · intro h
    have hform := encode_of_decodeFrom h
    rwa [List.reverse_nil, encode_nil, List.nil_append] at hform
  · rintro rfl
    exact decode?_encode cs

theorem toString?_eq_some_iff {bytes : Bytes} {s : String} :
    toString? bytes = some s ↔ bytes = ofString s := by
  rw [toString?, Option.map_eq_some_iff, ofString]
  constructor
  · rintro ⟨cs, hcs, rfl⟩
    rw [String.toList_ofList]
    exact decode?_eq_some_iff.1 hcs
  · rintro rfl
    exact ⟨s.toList, decode?_encode _, String.ofList_toList⟩

end PresenceLink.Utf8
