import PresenceLink.Proofs.Json.Spelling
import PresenceLink.Proofs.Text.Decoding

/-!
# What is wrong with a text

A text is read from its legal spellings and from nothing else. Octets between
quotes that spell no text are refused: a token in them is at fault, such as half
a pair of surrogates, or they are not UTF-8.

* `Flaw`, `Flaw.read`: a token at fault is where the reading stops;
* `spells_of_denotes`: tokens that stand for a text are a spelling of it;
* `readText_eq_ok_iff`: what a text is read from;
* `Flawed`, `readText_flawed`: what is wrong with a literal that is not read.
-/

namespace PresenceLink.Json

/-! ## Flaws -/

/-- The code unit that some octets begin with. -/
def unitAt? : Bytes → Option Nat
  | p :: q :: r :: s :: _ => codeUnit? [s, r, q, p]
  | _ => none

/-- Octets that begin with a token at fault: a control character that stands for
itself, a backslash with no known escape behind it, or a code unit that lacks a
digit, is the second of a pair, or is the first of a pair with no second behind
it. -/
inductive Flaw : Bytes → Prop
  | control {b : UInt8} {rest : Bytes} (hb : b < 32) : Flaw (b :: rest)
  | escape {b : UInt8} {rest : Bytes} (hb : shortEscape? b = none) (hu : b ≠ 117) :
      Flaw (92 :: b :: rest)
  | digits {rest : Bytes} (h : unitAt? rest = none) : Flaw (92 :: 117 :: rest)
  | trail {p q r s : UInt8} {n : Nat} {rest : Bytes} (hn : codeUnit? [s, r, q, p] = some n)
      (htrail : isTrail n = true) : Flaw (92 :: 117 :: p :: q :: r :: s :: rest)
  | lead {p q r s : UInt8} {n : Nat} {rest : Bytes} (hn : codeUnit? [s, r, q, p] = some n)
      (hlead : isLead n = true)
      (h : ∀ more n', rest = 92 :: 117 :: more → unitAt? more = some n' → isTrail n' = false) :
      Flaw (92 :: 117 :: p :: q :: r :: s :: rest)

/-! ## Tokens at fault -/

theorem codeUnit?_quote {p q r s : UInt8} (h : p = 34 ∨ q = 34 ∨ r = 34 ∨ s = 34) :
    codeUnit? [s, r, q, p] = none := by
  have hquote : hexValue? 34 = none := rfl
  rcases h with rfl | rfl | rfl | rfl <;> simp [codeUnit?, hquote]

/-- The quote behind a literal is no digit. -/
theorem unitAt?_append_quote (literal rest : Bytes) :
    unitAt? (literal ++ 34 :: rest) = unitAt? literal := by
  match literal with
  | p :: q :: r :: s :: literal => rfl
  | [] =>
    match rest with
    | q :: r :: s :: rest => exact codeUnit?_quote (.inl rfl)
    | [] | [_] | [_, _] => rfl
  | [p] =>
    match rest with
    | r :: s :: rest => exact codeUnit?_quote (.inr (.inl rfl))
    | [] | [_] => rfl
  | [p, q] =>
    match rest with
    | s :: rest => exact codeUnit?_quote (.inr (.inr (.inl rfl)))
    | [] => rfl
  | [p, q, r] => exact codeUnit?_quote (.inr (.inr (.inr rfl)))

/-- A code unit cannot be read if a digit is missing, or if it follows the first of
a pair and is not the second. -/
theorem readText_unitAt (seen : Bytes) (lead : Option Nat) (bytes : Bytes)
    (h : ∀ n, unitAt? bytes = some n → lead.isSome = true ∧ isTrail n = false) :
    ∃ e, readText (.unit seen lead []) bytes = .error e := by
  match bytes with
  | p :: q :: r :: s :: rest =>
    have hafter : TextState.afterUnit seen lead [s, r, q, p] = .error .malformed := by
      cases hn : codeUnit? [s, r, q, p] with
      | none => simp only [TextState.afterUnit, hn]
      | some n =>
        obtain ⟨hlead, htrail⟩ := h n hn
        obtain ⟨lead, rfl⟩ := Option.isSome_iff_exists.1 hlead
        simp only [TextState.afterUnit, hn, htrail, Bool.false_eq_true, if_false]
    rw [readText_unit, hafter]
    exact ⟨_, rfl⟩
  | [] | [_] | [_, _] | [_, _, _] => exact ⟨.truncated, rfl⟩

/-- A token at fault is where the reading stops. -/
theorem Flaw.read {bytes : Bytes} (h : Flaw bytes) (seen : Bytes) :
    ∃ e, readText (.plain seen) bytes = .error e := by
  cases h with
  | @control b rest hb =>
    have hquote : b ≠ 34 := by
      rintro rfl
      exact absurd hb (by decide)
    have hslash : b ≠ 92 := by
      rintro rfl
      exact absurd hb (by decide)
    rw [readText, TextState.next, if_neg hquote, if_neg hslash, if_pos hb]
    exact ⟨_, rfl⟩
  | @escape b rest hb hu =>
    rw [readText, TextState.next, if_neg (by decide), if_pos rfl]
    dsimp only
    rw [readText, TextState.next, if_neg hu, hb]
    exact ⟨_, rfl⟩
  | @digits rest h =>
    exact readText_unitAt seen none rest (by simp [h])
  | @trail p q r s n rest hn htrail =>
    change ∃ e, readText (.unit seen none []) (p :: q :: r :: s :: rest) = .error e
    have hafter : TextState.afterUnit seen none [s, r, q, p] = .error .malformed := by
      simp only [TextState.afterUnit, hn, htrail, if_true]
    rw [readText_unit, hafter]
    exact ⟨_, rfl⟩
  | @lead p q r s n rest hn hlead h =>
    change ∃ e, readText (.unit seen none []) (p :: q :: r :: s :: rest) = .error e
    rw [readText_unit, afterUnit_lead hn hlead]
    dsimp only
    -- Only a backslash and a letter lead on to another unit.
    cases rest with
    | nil => exact ⟨_, rfl⟩
    | cons b rest =>
      by_cases hb : b = 92
      · subst hb
        cases rest with
        | nil => exact ⟨_, rfl⟩
        | cons c rest =>
          change ∃ e, readText (.pairLetter seen n) (c :: rest) = .error e
          by_cases hc : c = 117
          · subst hc
            exact readText_unitAt seen (some n) rest fun n' hn' => ⟨rfl, h rest n' rfl hn'⟩
          · rw [readText, TextState.next, if_neg hc]
            exact ⟨_, rfl⟩
      · rw [readText, TextState.next, if_neg hb]
        exact ⟨_, rfl⟩

/-- A token at fault stays at fault when the literal ends. -/
theorem Flaw.append_quote {literal : Bytes} (h : Flaw literal) (rest : Bytes) :
    Flaw (literal ++ 34 :: rest) := by
  cases h with
  | control hb => exact .control hb
  | escape hb hu => exact .escape hb hu
  | digits h => exact .digits ((unitAt?_append_quote _ rest).trans h)
  | trail hn htrail => exact .trail hn htrail
  | @lead p q r s n tail hn hlead h =>
    refine .lead hn hlead fun more n' htail hn' => ?_
    rcases tail with - | ⟨b, - | ⟨c, tail⟩⟩
    · simp at htail
    · simp at htail
    · change b :: c :: (tail ++ 34 :: rest) = _ at htail
      simp only [List.cons.injEq] at htail
      obtain ⟨rfl, rfl, rfl⟩ := htail
      rw [unitAt?_append_quote] at hn'
      exact h tail n' rfl hn'

/-! ## Octets that are not UTF-8 -/

theorem Denotes.nil_iff {literal : Bytes} : Denotes literal [] ↔ literal = [] := by
  constructor
  · intro h
    generalize hoctets : ([] : Bytes) = octets at h
    cases h with
    | nil => rfl
    | plain | short => cases hoctets
    | unit | pair => exact absurd (List.append_eq_nil_iff.1 hoctets.symm).1 (Utf8.encodeChar_ne_nil _)
  · rintro rfl
    exact .nil

theorem isTail_short {b e : UInt8} (h : shortEscape? b = some e) : Utf8.isTail e = false := by
  unfold shortEscape? at h
  repeat' split at h
  all_goals cases h
  all_goals rfl

/-- Octets that no character begins with can only stand for themselves. -/
theorem Denotes.of_tails {tails literal octets : Bytes} (ht : ∀ b ∈ tails, Utf8.isTail b = true)
    (h : Denotes literal (tails ++ octets)) :
    ∃ rest, literal = tails ++ rest ∧ Denotes rest octets := by
  induction tails generalizing literal with
  | nil => exact ⟨literal, rfl, h⟩
  | cons t tails ih =>
    obtain ⟨htail, htails⟩ := List.forall_mem_cons.1 ht
    have hescaped : ∀ c octets', t :: tails ++ octets ≠ Utf8.encodeChar c ++ octets' := by
      intro c octets' he
      obtain ⟨b, more, hc, hb, -⟩ := Utf8.encodeChar_eq_cons c
      rw [hc, List.cons_append, List.cons_append, List.cons.injEq] at he
      rw [← he.1, htail] at hb
      cases hb
    generalize hoctets : t :: tails ++ octets = all at h
    cases h with
    | nil => cases hoctets
    | plain hb h =>
      rw [List.cons_append, List.cons.injEq] at hoctets
      obtain ⟨rfl, rfl⟩ := hoctets
      obtain ⟨rest, rfl, hrest⟩ := ih htails h
      exact ⟨rest, rfl, hrest⟩
    | short hb h =>
      rw [List.cons_append, List.cons.injEq] at hoctets
      rw [hoctets.1, isTail_short hb] at htail
      cases htail
    | unit | pair => exact absurd hoctets (hescaped _ _)

/-- A character of which the first octet stands for itself stands for itself. -/
theorem isPlain_head {c : Char} {b : UInt8} {tails : Bytes} (hc : Utf8.encodeChar c = b :: tails)
    (hb : IsPlain b) : 32 ≤ c.toNat ∧ c ≠ '"' ∧ c ≠ '\\' := by
  obtain ⟨hquote, hslash, hlow⟩ := hb
  refine ⟨?_, ?_, ?_⟩
  · refine Nat.le_of_not_lt fun hlt => hlow ?_
    simp only [Utf8.encodeChar, if_pos (show c.toNat < 0x80 by omega), List.cons.injEq] at hc
    have hb : b.toNat = c.toNat := by
      rw [← hc.1]
      simp
      omega
    rw [UInt8.lt_iff_toNat_lt, hb]
    exact hlt
  · rintro rfl
    cases hc
    exact hquote rfl
  · rintro rfl
    cases hc
    exact hslash rfl

/-- **Tokens that stand for a text are a spelling of it.** -/
theorem spells_of_denotes {cs : List Char} {literal : Bytes} (h : Denotes literal (Utf8.encode cs)) :
    SpellsText cs literal := by
  induction cs generalizing literal with
  | nil =>
    rw [Denotes.nil_iff.1 h]
    exact .nil
  | cons c cs ih =>
    rw [Utf8.encode_cons] at h
    generalize hoctets : Utf8.encodeChar c ++ Utf8.encode cs = octets at h
    cases h with
    | nil => exact absurd (List.append_eq_nil_iff.1 hoctets).1 (Utf8.encodeChar_ne_nil c)
    | @plain b literal octets hb h =>
      -- No escape stands for the other octets of a character, so these are plain too.
      obtain ⟨b', tails, hc, -, htails⟩ := Utf8.encodeChar_eq_cons c
      rw [hc, List.cons_append, List.cons.injEq] at hoctets
      obtain ⟨rfl, rfl⟩ := hoctets
      obtain ⟨rest, rfl, hrest⟩ := h.of_tails htails
      obtain ⟨hlow, hquote, hslash⟩ := isPlain_head hc hb
      have hspelled := SpellsText.raw hlow hquote hslash (ih hrest)
      rwa [hc] at hspelled
    | @short b e literal octets hb h =>
      have hchar : e :: octets = Utf8.encodeChar (Char.ofNat e.toNat) ++ octets := by
        rw [encodeChar_short hb]
        rfl
      obtain ⟨rfl, rfl⟩ := Utf8.encodeChar_append_inj (hoctets.trans hchar)
      exact .short hb (ih h)
    | unit hn hlead htrail h =>
      obtain ⟨rfl, rfl⟩ := Utf8.encodeChar_append_inj hoctets
      exact .unit hn hlead htrail (ih h)
    | pair hn hn' hlead htrail h =>
      obtain ⟨hc, rfl⟩ := Utf8.encodeChar_append_inj hoctets
      rw [hc]
      exact .pair hn hn' hlead htrail (ih h)

/-! ## What is read -/

/-- Where the tokens behind an opening quote lead: to the closing quote, to a
token at fault, or to the end of the input. -/
inductive Scanned : Bytes → Prop
  | closed {literal octets rest : Bytes} (h : Denotes literal octets) :
      Scanned (literal ++ 34 :: rest)
  | flawed {front octets rest : Bytes} (h : Denotes front octets) (hflaw : Flaw rest) :
      Scanned (front ++ rest)
  | unfinished {front octets rest : Bytes} (h : Denotes front octets)
      (hrest : rest = [] ∨ rest = [92]) : Scanned (front ++ rest)

theorem Scanned.behind (token : Bytes) {bytes : Bytes}
    (ht : ∀ literal octets, Denotes literal octets → ∃ octets', Denotes (token ++ literal) octets')
    (h : Scanned bytes) : Scanned (token ++ bytes) := by
  cases h with
  | closed h =>
    obtain ⟨_, h⟩ := ht _ _ h
    rw [← List.append_assoc]
    exact .closed h
  | flawed h hflaw =>
    obtain ⟨_, h⟩ := ht _ _ h
    rw [← List.append_assoc]
    exact .flawed h hflaw
  | unfinished h hrest =>
    obtain ⟨_, h⟩ := ht _ _ h
    rw [← List.append_assoc]
    exact .unfinished h hrest

theorem unitAt?_eq_some {bytes : Bytes} {n : Nat} (h : unitAt? bytes = some n) :
    ∃ p q r s rest, bytes = p :: q :: r :: s :: rest ∧ codeUnit? [s, r, q, p] = some n := by
  match bytes with
  | p :: q :: r :: s :: rest => exact ⟨p, q, r, s, rest, rfl, h⟩
  | [] | [_] | [_, _] | [_, _, _] => cases h

/-- Every input leads to one of them. -/
theorem scanned (bytes : Bytes) : Scanned bytes := by
  -- On the octets: a token that is in order leads on to shorter ones.
  have flaw : ∀ {rest}, Flaw rest → Scanned rest := fun h => .flawed .nil h
  match bytes with
  | [] => exact .unfinished .nil (.inl rfl)
  | b :: rest =>
    by_cases hquote : b = 34
    · subst hquote
      exact .closed .nil
    by_cases hslash : b = 92
    · subst hslash
      match rest with
      | [] => exact .unfinished .nil (.inr rfl)
      | b :: rest =>
        by_cases hu : b = 117
        · subst hu
          cases hn : unitAt? rest with
          | none => exact flaw (.digits hn)
          | some n =>
            obtain ⟨p, q, r, s, rest, rfl, hn⟩ := unitAt?_eq_some hn
            cases htrail : isTrail n with
            | true => exact flaw (.trail hn htrail)
            | false =>
              cases hlead : isLead n with
              | false =>
                exact (scanned rest).behind [92, 117, p, q, r, s]
                  fun _ _ h => ⟨_, .unit hn hlead htrail h⟩
              | true =>
                by_cases hpair : ∃ more n', rest = 92 :: 117 :: more ∧ unitAt? more = some n' ∧
                    isTrail n' = true
                · obtain ⟨_, n', rfl, hn', htrail'⟩ := hpair
                  obtain ⟨p', q', r', s', rest, rfl, hn'⟩ := unitAt?_eq_some hn'
                  exact (scanned rest).behind [92, 117, p, q, r, s, 92, 117, p', q', r', s']
                    fun _ _ h => ⟨_, .pair hn hn' hlead htrail' h⟩
                · refine flaw (.lead hn hlead fun more n' hrest hn' => ?_)
                  rw [← Bool.not_eq_true]
                  exact fun htrail' => hpair ⟨more, n', hrest, hn', htrail'⟩
        · cases hb : shortEscape? b with
          | none => exact flaw (.escape hb hu)
          | some e =>
            exact (scanned rest).behind [92, b] fun _ _ h => ⟨_, .short hb h⟩
    · by_cases hlow : b < 32
      · exact flaw (.control hlow)
      · exact (scanned rest).behind [b] fun _ _ h => ⟨_, .plain ⟨hquote, hslash, hlow⟩ h⟩
termination_by bytes.length

/-- **A text is read from its spellings**, up to the closing quote, and from
nothing else. -/
theorem readText_eq_ok_iff {bytes rest : Bytes} {s : String} :
    readText .start bytes = .ok (s, rest) ↔
      ∃ literal, SpellsText s.toList literal ∧ bytes = literal ++ 34 :: rest := by
  constructor
  · intro hread
    cases scanned bytes with
    | @closed literal octets rest' h =>
      rw [TextState.start, h.read, readText, TextState.next, if_pos rfl, List.append_nil,
        List.reverse_reverse] at hread
      cases hform : Utf8.toString? octets with
      | none =>
        rw [hform] at hread
        cases hread
      | some s' =>
        rw [hform] at hread
        cases hread
        rw [Utf8.toString?_eq_some_iff] at hform
        subst hform
        exact ⟨literal, spells_of_denotes h, rfl⟩
    | flawed h hflaw =>
      obtain ⟨e, he⟩ := hflaw.read _
      rw [TextState.start, h.read, he] at hread
      cases hread
    | unfinished h hrest =>
      rw [TextState.start, h.read] at hread
      rcases hrest with rfl | rfl <;> cases hread
  · rintro ⟨literal, h, rfl⟩
    exact h.read rest

/-! ## Flawed literals -/

/-- Octets between quotes: no quote among them is the closing one. -/
inductive Quoted : Bytes → Prop
  | nil : Quoted []
  | octet {b : UInt8} {literal : Bytes} (hquote : b ≠ 34) (hslash : b ≠ 92) (h : Quoted literal) :
      Quoted (b :: literal)
  | escaped {b : UInt8} {literal : Bytes} (h : Quoted literal) : Quoted (92 :: b :: literal)

/-- Octets between quotes that spell no text: a token is at fault behind some
that are in order, or the octets are not UTF-8. -/
inductive Flawed : Bytes → Prop
  | token {front octets rest : Bytes} (h : Denotes front octets) (hflaw : Flaw rest) :
      Flawed (front ++ rest)
  | octets {literal : Bytes} (h : Quoted literal) (hform : ∀ s, literal ≠ Utf8.ofString s) :
      Flawed literal

/-- The closing quote is found. -/
theorem Quoted.append_inj {literal literal' rest rest' : Bytes} (h : Quoted literal)
    (h' : Quoted literal') (he : literal ++ 34 :: rest = literal' ++ 34 :: rest') :
    literal = literal' := by
  induction h generalizing literal' with
  | nil =>
    cases h' with
    | nil => rfl
    | octet hquote => exact absurd (List.cons.inj he).1.symm hquote
    | escaped => exact absurd (List.cons.inj he).1 (by decide)
  | octet hquote hslash _ ih =>
    cases h' with
    | nil => exact absurd (List.cons.inj he).1 hquote
    | octet _ _ h' =>
      obtain ⟨rfl, htail⟩ := List.cons.inj he
      rw [ih h' htail]
    | escaped => exact absurd (List.cons.inj he).1 hslash
  | escaped _ ih =>
    cases h' with
    | nil => exact absurd (List.cons.inj he).1 (by decide)
    | octet _ hslash => exact absurd (List.cons.inj he).1.symm hslash
    | escaped h' =>
      obtain ⟨rfl, htail⟩ := List.cons.inj (List.cons.inj he).2
      rw [ih h' htail]

theorem lt_of_hexValue? {b : UInt8} {n : Nat} (h : hexValue? b = some n) : b.toNat < 128 := by
  unfold hexValue? at h
  repeat' split at h
  all_goals simp_all [UInt8.le_iff_toNat_le]
  all_goals omega

theorem ne_of_hexValue? {b : UInt8} {n : Nat} (h : hexValue? b = some n) : b ≠ 34 ∧ b ≠ 92 := by
  constructor <;>
  · rintro rfl
    cases h

/-- A code unit has four digits. -/
theorem digits_of_codeUnit? {p q r s : UInt8} {n : Nat} (h : codeUnit? [s, r, q, p] = some n) :
    ∀ b ∈ [p, q, r, s], ∃ d, hexValue? b = some d := by
  simp only [codeUnit?, Option.bind_eq_bind, Option.bind_eq_some_iff] at h
  obtain ⟨a, hp, b, hq, c, hr, d, hs, -⟩ := h
  simp [hp, hq, hr, hs]

theorem lt_of_shortEscape? {b e : UInt8} (h : shortEscape? b = some e) : b.toNat < 128 := by
  unfold shortEscape? at h
  iterate 8
    split at h
    · subst b
      decide
  cases h

theorem ascii_unit {p q r s : UInt8} {n : Nat} (h : codeUnit? [s, r, q, p] = some n) :
    ∀ b ∈ 92 :: 117 :: [p, q, r, s], b.toNat < 128 := by
  refine List.forall_mem_cons.2 ⟨by decide, List.forall_mem_cons.2 ⟨by decide, fun b hb => ?_⟩⟩
  obtain ⟨d, hd⟩ := digits_of_codeUnit? h b hb
  exact lt_of_hexValue? hd

/-- A spelling of a text is UTF-8 itself, though maybe that of another text. -/
theorem SpellsText.utf8 {cs : List Char} {literal : Bytes} (h : SpellsText cs literal) :
    ∃ s, literal = Utf8.ofString s := by
  induction h with
  | nil => exact ⟨"", rfl⟩
  | @raw c cs literal _ _ _ _ ih =>
    obtain ⟨s, rfl⟩ := ih
    exact ⟨_, Utf8.encodeChar_append_ofString c s⟩
  | @short b e cs literal hb _ ih =>
    obtain ⟨s, rfl⟩ := ih
    have hlt := lt_of_shortEscape? hb
    exact Utf8.ascii_append [92, b] (by simpa using hlt) s
  | @unit p q r s n cs literal hn _ _ _ ih =>
    obtain ⟨t, rfl⟩ := ih
    exact Utf8.ascii_append (92 :: 117 :: [p, q, r, s]) (ascii_unit hn) t
  | @pair p q r s p' q' r' s' lead trail cs literal hn hn' _ _ _ ih =>
    obtain ⟨t, rfl⟩ := ih
    exact Utf8.ascii_append (92 :: 117 :: [p, q, r, s] ++ 92 :: 117 :: [p', q', r', s'])
      (List.forall_mem_append.2 ⟨ascii_unit hn, ascii_unit hn'⟩) t

theorem IsText.quoted {literal : Bytes} (h : IsText literal) : Quoted literal := by
  induction h with
  | nil => exact .nil
  | plain hb _ ih => exact .octet hb.1 hb.2.1 ih
  | short _ _ ih => exact .escaped ih
  | @unit a b c d literal hu _ ih =>
    obtain ⟨n, hn⟩ := Option.isSome_iff_exists.1 hu
    have hdigit : ∀ x ∈ [a, b, c, d], x ≠ 34 ∧ x ≠ 92 := by
      intro x hx
      obtain ⟨v, hv⟩ := digits_of_codeUnit? hn x hx
      exact ne_of_hexValue? hv
    simp only [List.mem_cons, List.not_mem_nil, or_false, forall_eq_or_imp, forall_eq] at hdigit
    obtain ⟨ha, hb, hc, hd⟩ := hdigit
    exact .escaped (.octet ha.1 ha.2 (.octet hb.1 hb.2 (.octet hc.1 hc.2 (.octet hd.1 hd.2 ih))))

/-- **A flawed literal is not read**, whatever follows it. -/
theorem readText_flawed {literal : Bytes} (h : Flawed literal) (rest : Bytes) :
    ∃ e, readText .start (literal ++ 34 :: rest) = .error e := by
  cases h with
  | token h hflaw =>
    rw [TextState.start, List.append_assoc, h.read]
    exact (hflaw.append_quote rest).read _
  | octets h hform =>
    cases hread : readText .start (literal ++ 34 :: rest) with
    | error e => exact ⟨e, rfl⟩
    | ok read =>
      obtain ⟨literal', hspelled, he⟩ := readText_eq_ok_iff.1 hread
      obtain ⟨s, hs⟩ := hspelled.utf8
      exact absurd ((h.append_inj hspelled.isText.quoted he).trans hs) (hform s)

end PresenceLink.Json
