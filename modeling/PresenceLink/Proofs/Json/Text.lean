import Mathlib.Algebra.Group.Nat.Defs
import PresenceLink.Json.Number
import PresenceLink.Json.Value

/-!
# What is written for texts and numbers is read back

The reader of texts, fed with what is written for a text, stops at the closing
quote with that text. So the written form tells the text, whatever follows it.
Digits tell their number in the same way, as long as no digit follows them.

* `readText_renderText`: a written text is read back;
* `renderText_append_inj`: texts are told apart by their written forms;
* `splitDigits_digits`, `wholeValue_digits`: the same of digits;
* `decimal_append_inj`: numbers are told apart;
* `length_digits_le`: how many digits a number has.
-/

namespace PresenceLink.Json

/-! ## Texts -/

/-- Read a text up to its closing quote; the result is the text and what
follows it. -/
def readText (s : TextState) : Bytes → Except Fault (String × Bytes)
  | [] => .error .truncated
  | b :: rest =>
    match s.next b with
    | .error e => .error e
    | .ok (.more s) => readText s rest
    | .ok (.closed text) => .ok (text, rest)

/-- An octet that stands for itself in a text. -/
def IsPlain (b : UInt8) : Prop := b ≠ 34 ∧ b ≠ 92 ∧ ¬ b < 32

theorem isPlain_of_toNat {b : UInt8} (h1 : 32 ≤ b.toNat) (h2 : b.toNat ≠ 34)
    (h3 : b.toNat ≠ 92) : IsPlain b := by
  refine ⟨fun e => h2 (by rw [e]; rfl), fun e => h3 (by rw [e]; rfl), ?_⟩
  rw [UInt8.lt_iff_toNat_lt]
  exact Nat.not_lt.2 h1

theorem readText_plain (seen : Bytes) {octets : Bytes} (h : ∀ b ∈ octets, IsPlain b)
    (rest : Bytes) :
    readText (.plain seen) (octets ++ rest) = readText (.plain (octets.reverse ++ seen)) rest := by
  induction octets generalizing seen with
  | nil => rfl
  | cons b octets ih =>
    obtain ⟨⟨hquote, hslash, hlow⟩, htail⟩ := List.forall_mem_cons.1 h
    rw [List.cons_append, readText, TextState.next, if_neg hquote, if_neg hslash, if_neg hlow]
    simp only [ih _ htail, List.reverse_cons, List.append_assoc, List.singleton_append]

/-- The octets of a character that is not escaped. -/
theorem isPlain_encodeChar {c : Char} (h1 : 32 ≤ c.toNat) (h2 : c.toNat ≠ 34)
    (h3 : c.toNat ≠ 92) : ∀ b ∈ Utf8.encodeChar c, IsPlain b := by
  have hlt := Utf8.toNat_lt c
  have small : ∀ n, n < 256 → n.toUInt8.toNat = n := fun n h => by simp; omega
  have large : ∀ n, 128 ≤ n → n < 256 → IsPlain n.toUInt8 := fun n h h' =>
    isPlain_of_toNat (by rw [small n h']; omega) (by rw [small n h']; omega)
      (by rw [small n h']; omega)
  unfold Utf8.encodeChar
  simp only
  intro b hb
  split at hb
  · rename_i hone
    rw [List.mem_singleton.1 hb]
    have hn := small c.toNat (by omega)
    exact isPlain_of_toNat (by omega) (by omega) (by omega)
  · split at hb
    · simp only [List.mem_cons, List.not_mem_nil, or_false] at hb
      rcases hb with rfl | rfl <;> exact large _ (by omega) (by omega)
    · split at hb
      · simp only [List.mem_cons, List.not_mem_nil, or_false] at hb
        rcases hb with rfl | rfl | rfl <;> exact large _ (by omega) (by omega)
      · simp only [List.mem_cons, List.not_mem_nil, or_false] at hb
        rcases hb with rfl | rfl | rfl | rfl <;> exact large _ (by omega) (by omega)

/-- The two digits written for a control character. -/
theorem codeUnit?_hexDigit :
    ∀ n < 32, codeUnit? [hexDigit (n % 16), hexDigit (n / 16), 48, 48] = some n := by
  decide

/-- One written character is read back. -/
theorem readText_escape (seen : Bytes) (c : Char) (rest : Bytes) :
    readText (.plain seen) (escape c ++ rest) =
      readText (.plain ((Utf8.encodeChar c).reverse ++ seen)) rest := by
  unfold escape
  -- The short escapes are read by computation.
  iterate 7
    split
    · subst c
      rfl
  split
  · rename_i hlow
    have hunit := codeUnit?_hexDigit c.toNat hlow
    have hafter : TextState.afterUnit seen none [hexDigit (c.toNat % 16), hexDigit (c.toNat / 16),
        48, 48] = .ok (.more (.plain ((Utf8.encodeChar c).reverse ++ seen))) := by
      have htrail : isTrail c.toNat = false := by simp [isTrail]; omega
      have hlead : isLead c.toNat = false := by simp [isLead]; omega
      simp only [TextState.afterUnit, hunit, htrail, hlead, TextState.push, Utf8.ofNat_toNat]
      rfl
    change readText (.unit seen none [hexDigit (c.toNat / 16), 48, 48])
      (hexDigit (c.toNat % 16) :: rest) = _
    rw [readText]
    change (match TextState.afterUnit seen none [hexDigit (c.toNat % 16), hexDigit (c.toNat / 16),
        48, 48] with
      | .error e => Except.error e
      | .ok (.more s) => readText s rest
      | .ok (.closed text) => .ok (text, rest)) = _
    rw [hafter]
  · rename_i hquote hslash _ _ _ _ _ hlow
    have hq : c.toNat ≠ 34 := fun e => hquote (Char.toNat_inj.1 e)
    have hs : c.toNat ≠ 92 := fun e => hslash (Char.toNat_inj.1 e)
    exact readText_plain seen (isPlain_encodeChar (Nat.not_lt.1 hlow) hq hs) rest

theorem readText_flatMap_escape (before cs : List Char) (rest : Bytes) :
    readText (.plain (Utf8.encode before).reverse) (cs.flatMap escape ++ 34 :: rest) =
      .ok (String.ofList (before ++ cs), rest) := by
  induction cs generalizing before with
  | nil =>
    have hread : Utf8.toString? (Utf8.encode before) = some (String.ofList before) := by
      rw [Utf8.toString?, Utf8.decode?_encode]
      rfl
    rw [List.flatMap_nil, List.nil_append, readText, TextState.next, if_pos rfl,
      List.reverse_reverse, hread, List.append_nil]
  | cons c cs ih =>
    have hbefore : (Utf8.encodeChar c).reverse ++ (Utf8.encode before).reverse =
        (Utf8.encode (before ++ [c])).reverse := by
      rw [Utf8.encode_append, List.reverse_append, Utf8.encode_cons, Utf8.encode_nil,
        List.append_nil]
    rw [List.flatMap_cons, List.append_assoc, readText_escape, hbefore, ih]
    simp

/-- A written text is read back, whatever follows it. -/
theorem readText_renderText (s : String) (rest : Bytes) :
    readText .start (s.toList.flatMap escape ++ 34 :: rest) = .ok (s, rest) := by
  have h := readText_flatMap_escape [] s.toList rest
  rwa [List.nil_append, String.ofList_toList] at h

theorem renderText_append (s : String) (rest : Bytes) :
    renderText s ++ rest = 34 :: (s.toList.flatMap escape ++ 34 :: rest) := by
  simp [renderText]

theorem renderText_append_inj {s t : String} {rest rest' : Bytes}
    (h : renderText s ++ rest = renderText t ++ rest') : s = t ∧ rest = rest' := by
  rw [renderText_append, renderText_append, List.cons.injEq] at h
  have hread := congrArg (readText .start) h.2
  rw [readText_renderText, readText_renderText] at hread
  exact Prod.mk.inj (Except.ok.inj hread)

/-! ## Digits -/

theorem isDigit_digit {n : Nat} (h : n < 10) : isDigit (48 + n).toUInt8 = true := by
  revert n
  decide

theorem digitValue_digit {n : Nat} (h : n < 10) : digitValue (48 + n).toUInt8 = n := by
  revert n
  decide

theorem isDigit_digits (n : Nat) : ∀ b ∈ digits n, isDigit b = true := by
  induction n using digits.induct with
  | case1 n h =>
    rw [digits, if_pos h]
    intro b hb
    rw [List.mem_singleton.1 hb]
    exact isDigit_digit h
  | case2 n h ih =>
    rw [digits, if_neg h]
    intro b hb
    rcases List.mem_append.1 hb with hb | hb
    · exact ih b hb
    · rw [List.mem_singleton.1 hb]
      exact isDigit_digit (Nat.mod_lt _ (by decide))

theorem digits_ne_nil (n : Nat) : digits n ≠ [] := by
  rw [digits]
  split <;> simp

theorem wholeValue_append (ds : Bytes) (b : UInt8) :
    wholeValue (ds ++ [b]) = wholeValue ds * 10 + digitValue b := by
  rw [wholeValue, List.foldl_append]
  rfl

theorem wholeValue_digits (n : Nat) : wholeValue (digits n) = n := by
  induction n using digits.induct with
  | case1 n h =>
    rw [digits, if_pos h]
    exact (Nat.zero_add _).trans (digitValue_digit h)
  | case2 n h ih =>
    rw [digits, if_neg h, wholeValue_append, ih, digitValue_digit (Nat.mod_lt _ (by decide))]
    omega

theorem length_digits_le {k n : Nat} (hk : 0 < k) (h : n < 10 ^ k) : (digits n).length ≤ k := by
  induction n using digits.induct generalizing k with
  | case1 n hn =>
    rw [digits, if_pos hn]
    exact hk
  | case2 n hn ih =>
    rw [digits, if_neg hn, List.length_append, List.length_singleton]
    obtain ⟨k, rfl⟩ := Nat.exists_eq_add_of_le' hk
    have hpos : 0 < k := by
      refine Nat.pos_of_ne_zero ?_
      rintro rfl
      exact hn h
    have hdiv : n / 10 < 10 ^ k := by
      rw [Nat.pow_succ] at h
      exact Nat.div_lt_of_lt_mul (by omega)
    have hrest := ih hpos hdiv
    omega

/-- No digit comes next. -/
def Ends (rest : Bytes) : Prop := ∀ b ∈ rest.head?, isDigit b = false

theorem splitDigits_digits (n : Nat) {rest : Bytes} (h : Ends rest) :
    splitDigits (digits n ++ rest) = (digits n, rest) := by
  rw [splitDigits, List.takeWhile_append_of_pos (isDigit_digits n),
    List.dropWhile_append_of_pos (isDigit_digits n)]
  cases rest with
  | nil => simp
  | cons b rest =>
    have hb : isDigit b = false := h b rfl
    simp [hb]

theorem digits_append_inj {m n : Nat} {rest rest' : Bytes} (hr : Ends rest) (hr' : Ends rest')
    (h : digits m ++ rest = digits n ++ rest') : m = n ∧ rest = rest' := by
  have hsplit := congrArg splitDigits h
  rw [splitDigits_digits m hr, splitDigits_digits n hr'] at hsplit
  obtain ⟨hdigits, hrest⟩ := Prod.mk.inj hsplit
  refine ⟨?_, hrest⟩
  rw [← wholeValue_digits m, hdigits, wholeValue_digits]

theorem digits_eq_cons (n : Nat) : ∃ b tail, digits n = b :: tail ∧ isDigit b = true := by
  obtain ⟨b, tail, hd⟩ := List.exists_cons_of_ne_nil (digits_ne_nil n)
  exact ⟨b, tail, hd, isDigit_digits n b (by rw [hd]; exact List.mem_cons_self)⟩

/-- A number begins with a digit or with the sign. -/
theorem decimal_eq_cons (n : Int) :
    ∃ b tail, decimal n = b :: tail ∧ (b = 45 ∨ isDigit b = true) := by
  cases n with
  | ofNat n =>
    obtain ⟨b, tail, hd, hb⟩ := digits_eq_cons n
    exact ⟨b, tail, hd, Or.inr hb⟩
  | negSucc n => exact ⟨45, digits (n + 1), rfl, Or.inl rfl⟩

theorem decimal_append_inj {m n : Int} {rest rest' : Bytes} (hr : Ends rest) (hr' : Ends rest')
    (h : decimal m ++ rest = decimal n ++ rest') : m = n ∧ rest = rest' := by
  have hsign : ∀ (k l : Nat) (rest rest' : Bytes),
      digits k ++ rest ≠ decimal (.negSucc l) ++ rest' := by
    intro k l rest rest' he
    obtain ⟨b, tail, hd, hb⟩ := digits_eq_cons k
    rw [hd] at he
    rw [(List.cons.inj he).1] at hb
    exact absurd hb (by decide)
  cases m with
  | ofNat m =>
    cases n with
    | ofNat n =>
      obtain ⟨rfl, hrest⟩ := digits_append_inj hr hr' h
      exact ⟨rfl, hrest⟩
    | negSucc n => exact absurd h (hsign m n rest rest')
  | negSucc m =>
    cases n with
    | ofNat n => exact absurd h.symm (hsign n m rest' rest)
    | negSucc n =>
      obtain ⟨hmn, hrest⟩ := digits_append_inj hr hr' (List.cons.inj h).2
      exact ⟨by rw [Nat.succ.inj hmn], hrest⟩

end PresenceLink.Json
