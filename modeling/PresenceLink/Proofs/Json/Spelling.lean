import PresenceLink.Proofs.Json.Grammar

/-!
# How texts and integers can be spelled

A character of a text can stand for itself, or be escaped in several ways. Any
spelling of a text is read back as that text. A 32-bit integer has one spelling
only, as a number with a fraction or an exponent is not an integer.

* `SpellsText`: the spellings of a text;
* `Denotes`, `Denotes.read`: the octets that a literal stands for;
* `SpellsText.read`: the spellings of a text are read back;
* `int32Of_decimal`: so is a 32-bit integer;
* `SpellsText.isText`, `isNumber_decimal`: all of them are well formed.
-/

namespace PresenceLink.Json

/-! ## Texts -/

/-- The octets between the quotes of a text with given characters. A character
stands for itself, unless it is a quote, a backslash or a control character, or
is written as a short escape, as a code unit or as a pair of code units. -/
inductive SpellsText : List Char → Bytes → Prop
  | nil : SpellsText [] []
  | raw {c : Char} {cs : List Char} {literal : Bytes} (hlow : 32 ≤ c.toNat) (hquote : c ≠ '"')
      (hslash : c ≠ '\\') (h : SpellsText cs literal) :
      SpellsText (c :: cs) (Utf8.encodeChar c ++ literal)
  | short {b e : UInt8} {cs : List Char} {literal : Bytes} (hb : shortEscape? b = some e)
      (h : SpellsText cs literal) : SpellsText (Char.ofNat e.toNat :: cs) (92 :: b :: literal)
  | unit {p q r s : UInt8} {n : Nat} {cs : List Char} {literal : Bytes}
      (hn : codeUnit? [s, r, q, p] = some n) (hlead : isLead n = false) (htrail : isTrail n = false)
      (h : SpellsText cs literal) :
      SpellsText (Char.ofNat n :: cs) (92 :: 117 :: p :: q :: r :: s :: literal)
  | pair {p q r s p' q' r' s' : UInt8} {lead trail : Nat} {cs : List Char} {literal : Bytes}
      (hn : codeUnit? [s, r, q, p] = some lead) (hn' : codeUnit? [s', r', q', p'] = some trail)
      (hlead : isLead lead = true) (htrail : isTrail trail = true) (h : SpellsText cs literal) :
      SpellsText (Char.ofNat (joinPair lead trail) :: cs)
        (92 :: 117 :: p :: q :: r :: s :: 92 :: 117 :: p' :: q' :: r' :: s' :: literal)

/-- Characters that stand for themselves. -/
theorem SpellsText.plain {cs : List Char}
    (h : cs.all (fun c => 32 ≤ c.toNat && c ≠ '"' && c ≠ '\\') = true) :
    SpellsText cs (Utf8.encode cs) := by
  induction cs with
  | nil => exact .nil
  | cons c cs ih =>
    simp only [List.all_cons, Bool.and_eq_true, decide_eq_true_eq] at h
    obtain ⟨⟨⟨hlow, hquote⟩, hslash⟩, hcs⟩ := h
    exact .raw hlow hquote hslash (ih hcs)

/-- A short escape stands for an ASCII character. -/
theorem encodeChar_short {b e : UInt8} (h : shortEscape? b = some e) :
    Utf8.encodeChar (Char.ofNat e.toNat) = [e] := by
  unfold shortEscape? at h
  repeat' split at h
  all_goals cases h
  all_goals rfl

theorem short_ne_unit {b e : UInt8} (h : shortEscape? b = some e) : b ≠ 117 := by
  rintro rfl
  cases h

theorem isTrail_of_isLead {n : Nat} (h : isLead n = true) : isTrail n = false := by
  simp only [isTrail, isLead, Bool.and_eq_true, decide_eq_true_eq, Bool.and_eq_false_iff,
    decide_eq_false_iff_not] at *
  omega

/-- Four digits of a code unit, read one after the other. -/
theorem readText_unit (seen : Bytes) (lead : Option Nat) (p q r s : UInt8) (rest : Bytes) :
    readText (.unit seen lead []) (p :: q :: r :: s :: rest) =
      match TextState.afterUnit seen lead [s, r, q, p] with
      | .error e => .error e
      | .ok (.more state) => readText state rest
      | .ok (.closed text) => .ok (text, rest) := rfl

/-- The octets that a literal stands for. Whether they are UTF-8 is not asked. -/
inductive Denotes : Bytes → Bytes → Prop
  | nil : Denotes [] []
  | plain {b : UInt8} {literal octets : Bytes} (hb : IsPlain b) (h : Denotes literal octets) :
      Denotes (b :: literal) (b :: octets)
  | short {b e : UInt8} {literal octets : Bytes} (hb : shortEscape? b = some e)
      (h : Denotes literal octets) : Denotes (92 :: b :: literal) (e :: octets)
  | unit {p q r s : UInt8} {n : Nat} {literal octets : Bytes} (hn : codeUnit? [s, r, q, p] = some n)
      (hlead : isLead n = false) (htrail : isTrail n = false) (h : Denotes literal octets) :
      Denotes (92 :: 117 :: p :: q :: r :: s :: literal)
        (Utf8.encodeChar (Char.ofNat n) ++ octets)
  | pair {p q r s p' q' r' s' : UInt8} {lead trail : Nat} {literal octets : Bytes}
      (hn : codeUnit? [s, r, q, p] = some lead) (hn' : codeUnit? [s', r', q', p'] = some trail)
      (hlead : isLead lead = true) (htrail : isTrail trail = true) (h : Denotes literal octets) :
      Denotes (92 :: 117 :: p :: q :: r :: s :: 92 :: 117 :: p' :: q' :: r' :: s' :: literal)
        (Utf8.encodeChar (Char.ofNat (joinPair lead trail)) ++ octets)

theorem Denotes.append_plain {octets literal rest : Bytes} (h : ∀ b ∈ octets, IsPlain b)
    (hl : Denotes literal rest) : Denotes (octets ++ literal) (octets ++ rest) := by
  induction octets with
  | nil => exact hl
  | cons b octets ih =>
    obtain ⟨hb, hoctets⟩ := List.forall_mem_cons.1 h
    exact .plain hb (ih hoctets)

/-- A spelling of a text stands for the UTF-8 form of the text. -/
theorem SpellsText.denotes {cs : List Char} {literal : Bytes} (h : SpellsText cs literal) :
    Denotes literal (Utf8.encode cs) := by
  induction h with
  | nil => exact .nil
  | raw hlow hquote hslash _ ih =>
    exact .append_plain (isPlain_encodeChar hlow (fun e => hquote (Char.toNat_inj.1 e))
      (fun e => hslash (Char.toNat_inj.1 e))) ih
  | short hb _ ih =>
    rw [Utf8.encode_cons, encodeChar_short hb]
    exact .short hb ih
  | unit hn hlead htrail _ ih => exact .unit hn hlead htrail ih
  | pair hn hn' hlead htrail _ ih => exact .pair hn hn' hlead htrail ih

/-- Behind a single code unit. -/
theorem afterUnit_single {n : Nat} {digits : Bytes} (hn : codeUnit? digits = some n)
    (hlead : isLead n = false) (htrail : isTrail n = false) (seen : Bytes) :
    TextState.afterUnit seen none digits = .ok (.more (TextState.push seen n)) := by
  simp only [TextState.afterUnit, hn, htrail, hlead, Bool.false_eq_true, if_false]

/-- Behind the first code unit of a pair. -/
theorem afterUnit_lead {n : Nat} {digits : Bytes} (hn : codeUnit? digits = some n)
    (hlead : isLead n = true) (seen : Bytes) :
    TextState.afterUnit seen none digits = .ok (.more (.pairSlash seen n)) := by
  simp only [TextState.afterUnit, hn, isTrail_of_isLead hlead, hlead, Bool.false_eq_true, if_false,
    if_true]

/-- Behind the second code unit of a pair. -/
theorem afterUnit_trail {n : Nat} {digits : Bytes} (hn : codeUnit? digits = some n)
    (htrail : isTrail n = true) (seen : Bytes) (lead : Nat) :
    TextState.afterUnit seen (some lead) digits =
      .ok (.more (TextState.push seen (joinPair lead n))) := by
  simp only [TextState.afterUnit, hn, htrail, if_true]

/-- A literal is read as the octets that it stands for. -/
theorem Denotes.read {literal octets : Bytes} (h : Denotes literal octets) (seen rest : Bytes) :
    readText (.plain seen) (literal ++ rest) = readText (.plain (octets.reverse ++ seen)) rest := by
  induction h generalizing seen with
  | nil => rfl
  | @plain b literal octets hb h ih =>
    obtain ⟨hquote, hslash, hlow⟩ := hb
    rw [List.cons_append, readText, TextState.next, if_neg hquote, if_neg hslash, if_neg hlow]
    dsimp only
    rw [ih, List.reverse_cons, List.append_assoc, List.singleton_append]
  | @short b e literal octets hb h ih =>
    have hescape : readText (.plain seen) (92 :: b :: (literal ++ rest)) =
        readText (.plain (e :: seen)) (literal ++ rest) := by
      rw [readText, TextState.next, if_neg (by decide), if_pos rfl]
      dsimp only
      rw [readText, TextState.next, if_neg (short_ne_unit hb), hb]
    rw [List.cons_append, List.cons_append, hescape, ih, List.reverse_cons, List.append_assoc,
      List.singleton_append]
  | @unit p q r s n literal octets hn hlead htrail h ih =>
    change readText (.unit seen none []) (p :: q :: r :: s :: (literal ++ rest)) = _
    rw [readText_unit, afterUnit_single hn hlead htrail]
    dsimp only
    rw [TextState.push, ih, List.reverse_append, List.append_assoc]
  | @pair p q r s p' q' r' s' lead trail literal octets hn hn' hlead htrail h ih =>
    change readText (.unit seen none []) (p :: q :: r :: s :: _) = _
    rw [readText_unit, afterUnit_lead hn hlead]
    change readText (.unit seen (some lead) []) (p' :: q' :: r' :: s' :: (literal ++ rest)) = _
    rw [readText_unit, afterUnit_trail hn' htrail]
    dsimp only
    rw [TextState.push, ih, List.reverse_append, List.append_assoc]

/-- Any spelling of a text is read back, whatever follows it. -/
theorem SpellsText.read {s : String} {literal : Bytes} (h : SpellsText s.toList literal)
    (rest : Bytes) : readText .start (literal ++ 34 :: rest) = .ok (s, rest) := by
  have hform : Utf8.toString? (Utf8.encode s.toList) = some s := Utf8.toString?_ofString s
  rw [TextState.start, h.denotes.read, List.append_nil, readText, TextState.next, if_pos rfl,
    List.reverse_reverse, hform]

/-- What stands for some octets is well formed. -/
theorem Denotes.isText {literal octets : Bytes} (h : Denotes literal octets) : IsText literal := by
  induction h with
  | nil => exact .nil
  | plain hb _ ih => exact .plain hb ih
  | short hb _ ih => exact .short (by rw [hb]; rfl) ih
  | unit hn _ _ _ ih => exact .unit (by rw [hn]; rfl) ih
  | pair hn hn' _ _ _ ih => exact .unit (by rw [hn]; rfl) (.unit (by rw [hn']; rfl) ih)

/-- A spelling of a text is well formed. -/
theorem SpellsText.isText {cs : List Char} {literal : Bytes} (h : SpellsText cs literal) :
    IsText literal := h.denotes.isText

/-! ## Integers -/

theorem digit_ne_zero : ∀ n < 10, 0 < n → (48 + n).toUInt8 ≠ 48 := by decide

/-- The digits of a number other than zero do not begin with a zero. -/
theorem digits_eq_cons_of_pos {n : Nat} (h : 0 < n) :
    ∃ b ds, digits n = b :: ds ∧ b ≠ 48 := by
  induction n using digits.induct with
  | case1 n hn =>
    rw [digits, if_pos hn]
    exact ⟨_, [], rfl, digit_ne_zero n hn h⟩
  | case2 n hn ih =>
    obtain ⟨b, ds, hd, hb⟩ := ih (by omega)
    rw [digits, if_neg hn, hd]
    exact ⟨b, _, rfl, hb⟩

theorem isWhole_digits (n : Nat) : IsWhole (digits n) := by
  rcases Nat.eq_zero_or_pos n with rfl | hpos
  · rw [digits, if_pos (by decide)]
    exact .zero
  · obtain ⟨b, ds, hd, hb⟩ := digits_eq_cons_of_pos hpos
    have hdigits := isDigit_digits n
    rw [hd] at hdigits ⊢
    obtain ⟨hfirst, hothers⟩ := List.forall_mem_cons.1 hdigits
    exact .digits hfirst hb hothers

/-- A decimal number is well formed. -/
theorem isNumber_decimal (n : Int) : IsNumber (decimal n) := by
  cases n with
  | ofNat n =>
    have h := IsNumber.mk (Or.inl rfl) (isWhole_digits n) .none .none
    rwa [List.nil_append, List.append_nil, List.append_nil] at h
  | negSucc n =>
    have h := IsNumber.mk (Or.inr rfl) (isWhole_digits (n + 1)) .none .none
    rwa [List.append_nil, List.append_nil] at h

theorem scaleWhole_of_lt {s : Scaled} {ds : Bytes}
    (h : ds.foldl (fun n b => n * 10 + digitValue b) s.significand < significandLimit) :
    scaleWhole s ds =
      { s with significand := ds.foldl (fun n b => n * 10 + digitValue b) s.significand } := by
  induction ds generalizing s with
  | nil => rfl
  | cons b ds ih =>
    have hle : ∀ (ds : Bytes) (n : Nat), n ≤ ds.foldl (fun n b => n * 10 + digitValue b) n := by
      intro ds
      induction ds with
      | nil => exact fun n => Nat.le_refl n
      | cons b ds ih =>
        intro n
        exact Nat.le_trans (show n ≤ n * 10 + digitValue b by omega) (ih _)
    have hfits := Nat.lt_of_le_of_lt (hle ds (s.significand * 10 + digitValue b)) h
    rw [scaleWhole, if_pos hfits, ih h]
    rfl

/-- Small integers are not too large for a double. -/
theorem overflows_of_lt {n : Nat} (h : n < 9007199254740992) :
    Scaled.overflows ⟨n, 0⟩ = false := by
  have hbound : 9007199254740992 ≤ overflowBound := by decide +kernel
  unfold Scaled.overflows
  split
  · rfl
  · rw [if_neg (show ¬ (308 : Int) < 0 by decide), roundTo53_of_lt h]
    have hone : roundTo53 (Nat.pow 10 (Int.toNat 0)) = 1 := by decide +kernel
    rw [hone, Nat.mul_one, decide_eq_false]
    omega

theorem scaled_digits {n : Nat} (h : n < 9007199254740992) (negative : Bool) :
    (NumberParts.mk negative (digits n) none none).scaled.overflows = false := by
  have hvalue : (digits n).foldl (fun n b => n * 10 + digitValue b) 0 = n := wholeValue_digits n
  have hscale : scaleWhole ⟨0, 0⟩ (digits n) = ⟨n, 0⟩ := by
    rw [scaleWhole_of_lt]
    · rw [hvalue]
    · rw [hvalue]
      exact Nat.lt_trans h (by decide)
  change Scaled.overflows
    { (scaleFraction (scaleWhole ⟨0, 0⟩ (digits n)) []) with exponent := _ } = false
  rw [hscale]
  exact overflows_of_lt h

theorem splitDigits_digits_nil (n : Nat) : splitDigits (digits n) = (digits n, []) := by
  have h := splitDigits_digits n (show Ends [] by simp [Ends])
  rwa [List.append_nil] at h

/-- An integer of moderate size is read back. -/
theorem integerOf_decimal {n : Int} (h : n.natAbs < 9007199254740992) :
    integerOf (decimal n) = .ok (some n) := by
  cases n with
  | ofNat n =>
    obtain ⟨b, tail, hd, hb⟩ := digits_eq_cons n
    have hsign : (digits n).head? ≠ some 45 := by
      rw [hd]
      rintro h
      cases h
      cases hb
    have hparts : NumberParts.ofBytes (digits n) = ⟨false, digits n, none, none⟩ := by
      simp [NumberParts.ofBytes, hsign, splitDigits_digits_nil, splitFraction, readExponent]
    change integerOf (digits n) = _
    simp only [integerOf, hparts, scaled_digits (show n < 9007199254740992 from h), wholeValue_digits]
    rfl
  | negSucc n =>
    have hparts : NumberParts.ofBytes (45 :: digits (n + 1)) = ⟨true, digits (n + 1), none, none⟩ := by
      simp [NumberParts.ofBytes, splitDigits_digits_nil, splitFraction, readExponent]
    change integerOf (45 :: digits (n + 1)) = _
    simp only [integerOf, hparts, scaled_digits (show n + 1 < 9007199254740992 from h),
      wholeValue_digits]
    rfl

/-- A 32-bit integer is read back. -/
theorem int32Of_decimal (n : Int32) : int32Of (decimal n.toInt) = .ok n := by
  have hlow := n.le_toInt
  have hhigh := n.toInt_lt
  rw [int32Of, integerOf_decimal (by omega)]
  dsimp only
  rw [if_pos (by omega), Int32.ofInt_toInt]

end PresenceLink.Json
