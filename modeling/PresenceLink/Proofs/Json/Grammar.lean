import PresenceLink.Json.Record
import PresenceLink.Proofs.Json.Text

/-!
# The grammar of JSON

What a well-formed value looks like: words, numbers, texts, and arrays and
objects of such values, with blanks wherever the grammar has them. A value that
nobody asks for is skipped exactly to its end, however deep it is nested.

* `IsNumber`, `IsText`, `IsValue`: the well-formed octets;
* `Enclosed`: parts between brackets, with commas and blanks;
* `NumberForm.follow_number`: a number is read to its end;
* `run_literal`: so is a text;
* `run_skip`: so is any value.
-/

namespace PresenceLink.Json

/-! ## Octets -/

def Blanks (w : Bytes) : Prop := ∀ b ∈ w, isBlank b = true

/-- Parts with commas between them and blanks around them. -/
inductive Listed : List Bytes → Bytes → Prop
  | last {before part after : Bytes} (hb : Blanks before) (ha : Blanks after) :
      Listed [part] (before ++ part ++ after)
  | comma {before part after bytes : Bytes} {parts : List Bytes} (hb : Blanks before)
      (ha : Blanks after) (h : Listed parts bytes) :
      Listed (part :: parts) (before ++ part ++ after ++ 44 :: bytes)

/-- Parts between brackets. -/
inductive Enclosed (opening closing : UInt8) : List Bytes → Bytes → Prop
  | empty {w : Bytes} (h : Blanks w) : Enclosed opening closing [] (opening :: w ++ [closing])
  | parts {parts : List Bytes} {bytes : Bytes} (h : Listed parts bytes) :
      Enclosed opening closing parts (opening :: bytes ++ [closing])

theorem Enclosed.first {opening closing : UInt8} {parts : List Bytes} {bytes : Bytes}
    (h : Enclosed opening closing parts bytes) : ∃ tail, bytes = opening :: tail := by
  cases h <;> exact ⟨_, rfl⟩

/-- A member of an object: the octets of its name and of its value, and the
blanks around the colon. -/
structure MemberForm where
  name : Bytes
  before : Bytes
  behind : Bytes
  value : Bytes
  before_blank : Blanks before
  behind_blank : Blanks behind

def MemberForm.bytes (m : MemberForm) : Bytes :=
  34 :: m.name ++ 34 :: m.before ++ 58 :: m.behind ++ m.value

/-! ## Numbers -/

def IsDigits (ds : Bytes) : Prop := ds ≠ [] ∧ ∀ b ∈ ds, isDigit b = true

/-- The whole part of a number has no needless zero in front. -/
inductive IsWhole : Bytes → Prop
  | zero : IsWhole [48]
  | digits {b : UInt8} {ds : Bytes} (hb : isDigit b = true) (h0 : b ≠ 48)
      (h : ∀ b ∈ ds, isDigit b = true) : IsWhole (b :: ds)

inductive IsFraction : Bytes → Prop
  | none : IsFraction []
  | some {ds : Bytes} (h : IsDigits ds) : IsFraction (46 :: ds)

inductive IsExponent : Bytes → Prop
  | none : IsExponent []
  | some {mark : UInt8} {sign ds : Bytes} (hmark : mark = 101 ∨ mark = 69)
      (hsign : sign = [] ∨ sign = [43] ∨ sign = [45]) (h : IsDigits ds) :
      IsExponent (mark :: (sign ++ ds))

inductive IsNumber : Bytes → Prop
  | mk {sign whole fraction exponent : Bytes} (hsign : sign = [] ∨ sign = [45])
      (hwhole : IsWhole whole) (hfraction : IsFraction fraction)
      (hexponent : IsExponent exponent) : IsNumber (sign ++ whole ++ fraction ++ exponent)

namespace NumberForm

/-- The form behind some octets that all belong to the number. -/
def follow (f : NumberForm) : Bytes → Option NumberForm
  | [] => some f
  | b :: bs =>
    match f.next b with
    | .ok (some f) => f.follow bs
    | _ => none

theorem follow_append (f : NumberForm) (a b : Bytes) :
    f.follow (a ++ b) = (f.follow a).bind (·.follow b) := by
  induction a generalizing f with
  | nil => rfl
  | cons x a ih =>
    rw [List.cons_append, follow, follow]
    split
    · exact ih _
    · rfl

theorem follow_digits {f : NumberForm}
    (hf : ∀ b, isDigit b = true → f.next b = .ok (some f)) {ds : Bytes}
    (h : ∀ b ∈ ds, isDigit b = true) : f.follow ds = some f := by
  induction ds with
  | nil => rfl
  | cons b ds ih =>
    obtain ⟨hb, hds⟩ := List.forall_mem_cons.1 h
    rw [follow, hf b hb]
    exact ih hds

theorem next_whole {b : UInt8} (h : isDigit b = true) : whole.next b = .ok (some whole) := by
  rw [next, if_pos h]

theorem next_fraction {b : UInt8} (h : isDigit b = true) :
    fraction.next b = .ok (some fraction) := by
  rw [next, if_pos h]

theorem next_exponent {b : UInt8} (h : isDigit b = true) :
    exponent.next b = .ok (some exponent) := by
  rw [next, if_pos h]

/-- Behind the whole part. -/
def BehindWhole (f : NumberForm) : Prop := f = zero ∨ f = whole

/-- Behind the fraction, if there is one. -/
def BehindFraction (f : NumberForm) : Prop := f.BehindWhole ∨ f = fraction

theorem follow_whole {digits : Bytes} (h : IsWhole digits) :
    ∃ b more f f', digits = b :: more ∧ ofFirst? b = some f ∧ minus.next b = .ok (some f) ∧
      f.follow more = some f' ∧ f'.BehindWhole := by
  cases h with
  | zero => exact ⟨48, [], zero, zero, rfl, rfl, rfl, rfl, Or.inl rfl⟩
  | @digits b ds hb h0 h =>
    have hsign : b ≠ 45 := by
      rintro rfl
      cases hb
    refine ⟨b, ds, whole, whole, rfl, ?_, ?_, follow_digits (fun _ => next_whole) h, Or.inr rfl⟩
    · rw [ofFirst?, if_neg hsign, if_neg h0, if_pos hb]
    · rw [next, if_neg h0, if_pos hb]

theorem follow_fraction {f : NumberForm} (hf : f.BehindWhole) {bytes : Bytes}
    (h : IsFraction bytes) : ∃ f', f.follow bytes = some f' ∧ f'.BehindFraction := by
  cases h with
  | none => exact ⟨f, rfl, Or.inl hf⟩
  | @some ds h =>
    obtain ⟨d, ds, rfl⟩ := List.exists_cons_of_ne_nil h.1
    obtain ⟨hd, hds⟩ := List.forall_mem_cons.1 h.2
    have hpoint : f.next 46 = .ok (some point) := by rcases hf with rfl | rfl <;> rfl
    have hfirst : point.next d = .ok (some fraction) := by rw [next, if_pos hd]
    refine ⟨fraction, ?_, Or.inr rfl⟩
    rw [follow, hpoint]
    dsimp only
    rw [follow, hfirst]
    exact follow_digits (fun _ => next_fraction) hds

theorem follow_exponent {f : NumberForm} (hf : f.BehindFraction) {bytes : Bytes}
    (h : IsExponent bytes) : ∃ f', f.follow bytes = some f' ∧ f'.complete = true := by
  cases h with
  | none => exact ⟨f, rfl, by rcases hf with (rfl | rfl) | rfl <;> rfl⟩
  | @some m s ds hmark hsign h =>
    obtain ⟨d, ds, rfl⟩ := List.exists_cons_of_ne_nil h.1
    obtain ⟨hd, hds⟩ := List.forall_mem_cons.1 h.2
    have hnext : f.next m = .ok (some mark) := by
      rcases hf with (rfl | rfl) | rfl <;> rcases hmark with rfl | rfl <;> rfl
    have hdigits : exponent.follow ds = some exponent := follow_digits (fun _ => next_exponent) hds
    refine ⟨exponent, ?_, rfl⟩
    rw [follow, hnext]
    dsimp only
    rcases hsign with rfl | hsign
    · have hunsigned : d ≠ 43 ∧ d ≠ 45 := by
        constructor <;>
        · rintro rfl
          cases hd
      have hfirst : mark.next d = .ok (some exponent) := by
        rw [next, if_neg (by simp [hunsigned]), if_pos hd]
      rw [List.nil_append, follow, hfirst]
      exact hdigits
    · have hfirst : sign.next d = .ok (some exponent) := by rw [next, if_pos hd]
      rcases hsign with rfl | rfl
      all_goals
        change sign.follow (d :: ds) = _
        rw [follow, hfirst]
        exact hdigits

/-- A well-formed number is read to its end. -/
theorem follow_number {bytes : Bytes} (h : IsNumber bytes) :
    ∃ b more f f', bytes = b :: more ∧ ofFirst? b = some f ∧ f.follow more = some f' ∧
      f'.complete = true := by
  obtain @⟨sign, _, fraction, exponent, hsign, hwhole, hfraction, hexponent⟩ := h
  obtain ⟨b, more, f, f₁, rfl, hfirst, hminus, hf₁, hbehind⟩ := follow_whole hwhole
  obtain ⟨f₂, hf₂, hbehind⟩ := follow_fraction hbehind hfraction
  obtain ⟨f₃, hf₃, hcomplete⟩ := follow_exponent hbehind hexponent
  rcases hsign with rfl | rfl
  · refine ⟨b, more ++ fraction ++ exponent, f, f₃, rfl, hfirst, ?_, hcomplete⟩
    rw [follow_append, follow_append, hf₁, Option.bind_some, hf₂, Option.bind_some, hf₃]
  · refine ⟨45, b :: more ++ fraction ++ exponent, minus, f₃, rfl, rfl, ?_, hcomplete⟩
    rw [follow_append, follow_append, follow, hminus]
    dsimp only
    rw [hf₁, Option.bind_some, hf₂, Option.bind_some, hf₃]

end NumberForm

/-! ## What follows a value -/

/-- An octet that no value goes on with. -/
def IsStop (b : UInt8) : Prop := isBlank b = true ∨ b = 44 ∨ b = 93 ∨ b = 125

/-- The octets behind a value that brackets enclose. -/
def Stops (rest : Bytes) : Prop := ∃ b tail, rest = b :: tail ∧ IsStop b

theorem isBlank_iff {b : UInt8} : isBlank b = true ↔ b = 32 ∨ b = 9 ∨ b = 10 ∨ b = 13 := by
  simp [isBlank, or_assoc]

theorem stops_append {w : Bytes} (h : Blanks w) {b : UInt8} (hb : IsStop b) (rest : Bytes) :
    Stops (w ++ b :: rest) := by
  cases w with
  | nil => exact ⟨b, rest, rfl, hb⟩
  | cons c w => exact ⟨c, _, rfl, Or.inl (h c List.mem_cons_self)⟩

/-- A complete number ends before such an octet. -/
theorem NumberForm.next_stop {f : NumberForm} (hf : f.complete = true) {b : UInt8}
    (hb : IsStop b) : f.next b = .ok none := by
  rw [IsStop, isBlank_iff] at hb
  cases f <;> cases hf <;> rcases hb with (rfl | rfl | rfl | rfl) | rfl | rfl | rfl <;> rfl

/-! ## Texts -/

/-- The octets of a text between its quotes. What its characters are does not
matter. -/
inductive IsText : Bytes → Prop
  | nil : IsText []
  | plain {b : UInt8} {literal : Bytes} (hb : IsPlain b) (h : IsText literal) :
      IsText (b :: literal)
  | short {b : UInt8} {literal : Bytes} (hb : (shortEscape? b).isSome = true)
      (h : IsText literal) : IsText (92 :: b :: literal)
  | unit {a b c d : UInt8} {literal : Bytes} (hu : (codeUnit? [d, c, b, a]).isSome = true)
      (h : IsText literal) : IsText (92 :: 117 :: a :: b :: c :: d :: literal)

/-! ## Values -/

/-- The octets of a well-formed value. -/
inductive IsValue : Bytes → Prop
  | null : IsValue [110, 117, 108, 108]
  | true : IsValue [116, 114, 117, 101]
  | false : IsValue [102, 97, 108, 115, 101]
  | number {bytes : Bytes} (h : IsNumber bytes) : IsValue bytes
  | text {literal : Bytes} (h : IsText literal) : IsValue (34 :: literal ++ [34])
  | array {items : List Bytes} {bytes : Bytes} (h : ∀ item ∈ items, IsValue item)
      (he : Enclosed 91 93 items bytes) : IsValue bytes
  | object {members : List MemberForm} {bytes : Bytes} (hn : ∀ m ∈ members, IsText m.name)
      (h : ∀ m ∈ members, IsValue m.value)
      (he : Enclosed 123 125 (members.map MemberForm.bytes) bytes) : IsValue bytes

/-- An octet that a value begins with. -/
def IsFirst (b : UInt8) : Prop := isBlank b = false ∧ b ≠ 93

theorem IsValue.first {bytes : Bytes} (h : IsValue bytes) :
    ∃ b tail, bytes = b :: tail ∧ IsFirst b := by
  cases h with
  | number h =>
    obtain ⟨b, more, f, f', rfl, hfirst, -⟩ := NumberForm.follow_number h
    refine ⟨b, more, rfl, ?_, ?_⟩
    · rw [← Bool.not_eq_true, isBlank_iff]
      rintro (rfl | rfl | rfl | rfl) <;> cases hfirst
    · rintro rfl
      cases hfirst
  | array h he =>
    obtain ⟨tail, rfl⟩ := he.first
    exact ⟨91, tail, rfl, rfl, by decide⟩
  | object hn h he =>
    obtain ⟨tail, rfl⟩ := he.first
    exact ⟨123, tail, rfl, rfl, by decide⟩
  | _ => exact ⟨_, _, rfl, rfl, by decide⟩

/-! ## Skipping -/

namespace Reader

theorem run_cons (r : Reader) (b : UInt8) (rest : Bytes) :
    r.run (b :: rest) = (r.next b).bind (·.run rest) := by
  rw [run]
  cases r.next b <;> rfl

theorem run_blanks {r : Reader} (hr : ∀ b, isBlank b = true → r.next b = .ok r) {w : Bytes}
    (h : Blanks w) (rest : Bytes) : r.run (w ++ rest) = r.run rest := by
  induction w with
  | nil => rfl
  | cons b w ih =>
    obtain ⟨hb, hw⟩ := List.forall_mem_cons.1 h
    rw [List.cons_append, run, hr b hb]
    exact ih hw

/-- A reader that skips. -/
def skipping (place : SkipPlace) (enclosing : List Bracket) (levels : List OpenRecord) : Reader :=
  { place := .skip { place, enclosing }, levels }

/-- A reader behind a value that it has skipped. -/
def skipped (levels : List OpenRecord) : List Bracket → Reader
  | [] => { place := .after, levels }
  | enclosing => skipping .after enclosing levels

variable {enclosing : List Bracket} {levels : List OpenRecord}

/-- Inside a text of either use, the octets of the text change nothing. -/
theorem run_literal (wrap : SkippedText → Reader)
    (hwrap : ∀ {state b state'}, SkippedText.next state b = .ok (.more state') →
      (wrap state).next b = .ok (wrap state'))
    {literal : Bytes} (h : IsText literal) (rest : Bytes) :
    (wrap .plain).run (literal ++ rest) = (wrap .plain).run rest := by
  induction h with
  | nil => rfl
  | @plain b literal hb h ih =>
    have hstep : SkippedText.next .plain b = .ok (.more .plain) := by
      rw [SkippedText.next, if_neg hb.1, if_neg hb.2.1, if_neg hb.2.2]
    rw [List.cons_append, run, hwrap hstep]
    exact ih
  | @short b literal hb h ih =>
    have hne : b ≠ 117 := by
      rintro rfl
      cases hb
    have hslash : SkippedText.next .plain 92 = .ok (.more .escape) := rfl
    have hletter : SkippedText.next .escape b = .ok (.more .plain) := by
      rw [SkippedText.next, if_neg hne, if_pos hb]
    rw [List.cons_append, List.cons_append, run, hwrap hslash]
    dsimp only
    rw [run, hwrap hletter]
    exact ih
  | @unit a b c d literal hu h ih =>
    have hslash : SkippedText.next .plain 92 = .ok (.more .escape) := rfl
    have hletter : SkippedText.next .escape 117 = .ok (.more (.unit [])) := rfl
    have ha : SkippedText.next (.unit []) a = .ok (.more (.unit [a])) := rfl
    have hb : SkippedText.next (.unit [a]) b = .ok (.more (.unit [b, a])) := rfl
    have hc : SkippedText.next (.unit [b, a]) c = .ok (.more (.unit [c, b, a])) := rfl
    have hd : SkippedText.next (.unit [c, b, a]) d = .ok (.more .plain) := by
      simp only [SkippedText.next, List.length_cons, List.length_nil, Nat.lt_irrefl, if_false, hu,
        if_true]
    simp only [List.cons_append, run, hwrap hslash, hwrap hletter, hwrap ha, hwrap hb, hwrap hc,
      hwrap hd]
    exact ih

/-- A number that no bracket or comma has ended yet. -/
theorem run_number {f f' : NumberForm} {bytes : Bytes} (h : f.follow bytes = some f')
    (hf : f'.complete = true) {rest : Bytes} (hr : Stops rest) :
    (skipping (.number f) enclosing levels).run (bytes ++ rest) =
      (skipped levels enclosing).run rest := by
  induction bytes generalizing f with
  | nil =>
    cases h
    obtain ⟨b, tail, rfl, hb⟩ := hr
    have hstop := NumberForm.next_stop hf hb
    rw [List.nil_append, run, run]
    congr 1
    cases enclosing with
    | nil => simp only [skipping, skipped, next, Skip.next, hstop, Skip.afterNext]
    | cons bracket enclosing => simp only [skipping, skipped, next, Skip.next, hstop]
  | cons b bytes ih =>
    rw [NumberForm.follow] at h
    split at h
    · rename_i g hg
      have hstep : (skipping (.number f) enclosing levels).next b =
          .ok (skipping (.number g) enclosing levels) := by
        simp only [skipping, next, Skip.next, hg]
      rw [List.cons_append, run, hstep]
      exact ih h
    · cases h

end Reader

/-- The octet that closes a bracket. -/
def Bracket.closing : Bracket → UInt8
  | array => 93
  | object => 125

/-- What is due behind a bracket or a comma. -/
def Bracket.begins : Bracket → SkipPlace
  | array => .value
  | object => .name

namespace Reader

variable {enclosing : List Bracket} {levels : List OpenRecord} {bracket : Bracket}

/-- Between the tokens of a skipped value blanks change nothing. -/
theorem next_blank {place : SkipPlace} (h : place ∈ [.value, .name, .colon, .opened, .after])
    (b : UInt8) (hb : isBlank b = true) :
    (skipping place (bracket :: enclosing) levels).next b =
      .ok (skipping place (bracket :: enclosing) levels) := by
  simp only [List.mem_cons, List.not_mem_nil, or_false] at h
  rcases h with rfl | rfl | rfl | rfl | rfl
  · simp only [skipping, next, Skip.next, hb, if_true]
  · simp only [skipping, next, Skip.next, hb, if_true]
  · simp only [skipping, next, Skip.next, hb, if_true]
  · cases bracket <;> simp only [skipping, next, Skip.next, Skip.openedNext, hb, if_true]
  · cases bracket <;> simp only [skipping, next, Skip.next, Skip.afterNext, hb, if_true]

theorem blank_begins : bracket.begins ∈ [SkipPlace.value, .name, .colon, .opened, .after] := by
  cases bracket <;> simp [Bracket.begins]

theorem next_comma : (skipping .after (bracket :: enclosing) levels).next 44 =
    .ok (skipping bracket.begins (bracket :: enclosing) levels) := by
  cases bracket <;> rfl

theorem next_closing {place : SkipPlace} (h : place = .opened ∨ place = .after) :
    (skipping place (bracket :: enclosing) levels).next bracket.closing =
      .ok (skipped levels enclosing) := by
  rcases h with rfl | rfl <;> cases bracket <;> cases enclosing <;> rfl

/-- Behind an opening bracket the first part begins as the others do. -/
theorem next_opened {b : UInt8} (hb : isBlank b = false) (hc : b ≠ bracket.closing) :
    (skipping .opened (bracket :: enclosing) levels).next b =
      (skipping bracket.begins (bracket :: enclosing) levels).next b := by
  cases bracket <;>
    simp_all [skipping, next, Skip.next, Skip.openedNext, Bracket.begins, Bracket.closing]

/-- The parts between brackets, if each of them is read to its end. -/
theorem run_listed {parts : List Bytes} {bytes : Bytes} (h : Listed parts bytes)
    (hp : ∀ part ∈ parts, ∀ rest, Stops rest →
      (skipping bracket.begins (bracket :: enclosing) levels).run (part ++ rest) =
        (skipping .after (bracket :: enclosing) levels).run rest) (rest : Bytes) :
    (skipping bracket.begins (bracket :: enclosing) levels).run (bytes ++ bracket.closing :: rest) =
      (skipped levels enclosing).run rest := by
  have hstop : IsStop bracket.closing := by cases bracket <;> simp [IsStop, Bracket.closing]
  induction h with
  | @last before part after hb ha =>
    rw [List.append_assoc, List.append_assoc, run_blanks (next_blank blank_begins) hb,
      hp part List.mem_cons_self _ (stops_append ha hstop rest),
      run_blanks (next_blank (by simp)) ha, run, next_closing (Or.inr rfl)]
  | @comma before part after bytes parts hb ha h ih =>
    have hbehind : Stops (after ++ 44 :: (bytes ++ bracket.closing :: rest)) :=
      stops_append ha (Or.inr (Or.inl rfl)) _
    simp only [List.append_assoc, List.cons_append]
    rw [run_blanks (next_blank blank_begins) hb, hp part List.mem_cons_self _ hbehind,
      run_blanks (next_blank (by simp)) ha, run, next_comma]
    exact ih fun part hpart => hp part (List.mem_cons_of_mem _ hpart)

theorem run_opened {parts : List Bytes} {bytes : Bytes} (h : Listed parts bytes)
    (hf : ∀ part ∈ parts, ∃ b tail, part = b :: tail ∧ isBlank b = false ∧ b ≠ bracket.closing)
    (rest : Bytes) :
    (skipping .opened (bracket :: enclosing) levels).run (bytes ++ rest) =
      (skipping bracket.begins (bracket :: enclosing) levels).run (bytes ++ rest) := by
  have hpart : ∀ (before part behind : Bytes), Blanks before →
      (∃ b tail, part = b :: tail ∧ isBlank b = false ∧ b ≠ bracket.closing) →
      (skipping .opened (bracket :: enclosing) levels).run (before ++ (part ++ behind)) =
        (skipping bracket.begins (bracket :: enclosing) levels).run (before ++ (part ++ behind)) := by
    rintro before _ behind hb ⟨b, tail, rfl, hblank, hclosing⟩
    rw [run_blanks (next_blank (by simp)) hb, run_blanks (next_blank blank_begins) hb,
      List.cons_append, run, run, next_opened hblank hclosing]
  cases h with
  | last hb ha =>
    simp only [List.append_assoc]
    exact hpart _ _ _ hb (hf _ List.mem_cons_self)
  | comma hb ha h =>
    simp only [List.append_assoc]
    exact hpart _ _ _ hb (hf _ List.mem_cons_self)

/-- What stands between brackets, if each part of it is read to its end. -/
theorem run_enclosed {opening closing : UInt8} (hclosing : closing = bracket.closing)
    (hopening : (skipping .value enclosing levels).next opening =
      .ok (skipping .opened (bracket :: enclosing) levels)) {parts : List Bytes} {bytes : Bytes}
    (h : Enclosed opening closing parts bytes)
    (hf : ∀ part ∈ parts, ∃ b tail, part = b :: tail ∧ isBlank b = false ∧ b ≠ bracket.closing)
    (hp : ∀ part ∈ parts, ∀ rest, Stops rest →
      (skipping bracket.begins (bracket :: enclosing) levels).run (part ++ rest) =
        (skipping .after (bracket :: enclosing) levels).run rest) (rest : Bytes) :
    (skipping .value enclosing levels).run (bytes ++ rest) = (skipped levels enclosing).run rest := by
  subst hclosing
  cases h with
  | @empty w hw =>
    simp only [List.cons_append, List.append_assoc, List.nil_append]
    rw [run, hopening]
    dsimp only
    rw [run_blanks (next_blank (by simp)) hw, run, next_closing (Or.inl rfl)]
  | @parts _ bytes h =>
    simp only [List.cons_append, List.append_assoc, List.nil_append]
    rw [run, hopening]
    dsimp only
    rw [run_opened h hf, run_listed h hp]

theorem next_number {f : NumberForm} {b : UInt8} (h : NumberForm.ofFirst? b = some f) :
    (skipping .value enclosing levels).next b = .ok (skipping (.number f) enclosing levels) := by
  have hblank : isBlank b = false := by
    rw [← Bool.not_eq_true, isBlank_iff]
    rintro (rfl | rfl | rfl | rfl) <;> cases h
  have hword : owedWord? b = none := by
    unfold owedWord?
    split
    · subst b; cases h
    · split
      · subst b; cases h
      · split
        · subst b; cases h
        · rfl
  simp only [skipping, next, Skip.next, hblank, Bool.false_eq_true, if_false, Skip.valueNext, hword, h]

/-- A member of an object, if its value is read to its end. -/
theorem run_skipped_member {m : MemberForm} (hn : IsText m.name)
    (hv : ∀ rest, Stops rest → (skipping .value (bracket :: enclosing) levels).run (m.value ++ rest) =
      (skipping .after (bracket :: enclosing) levels).run rest) {rest : Bytes} (hr : Stops rest) :
    (skipping .name (bracket :: enclosing) levels).run (m.bytes ++ rest) =
      (skipping .after (bracket :: enclosing) levels).run rest := by
  have hwrap : ∀ {state b state'}, SkippedText.next state b = .ok (.more state') →
      (skipping (.nameText state) (bracket :: enclosing) levels).next b =
        .ok (skipping (.nameText state') (bracket :: enclosing) levels) := by
    intro state b state' h
    simp only [skipping, next, Skip.next, h]
  simp only [MemberForm.bytes, List.cons_append, List.append_assoc]
  change (skipping (.nameText .plain) (bracket :: enclosing) levels).run _ = _
  rw [run_literal (fun state => skipping (.nameText state) (bracket :: enclosing) levels)
    hwrap hn]
  change (skipping .colon (bracket :: enclosing) levels).run _ = _
  rw [run_blanks (next_blank (by simp)) m.before_blank]
  change (skipping .value (bracket :: enclosing) levels).run _ = _
  rw [run_blanks (next_blank (by simp)) m.behind_blank, hv rest hr]

/-- **A value that nobody asks for is skipped exactly to its end.** -/
theorem run_skip {bytes : Bytes} (h : IsValue bytes) (enclosing : List Bracket)
    (levels : List OpenRecord) {rest : Bytes} (hr : Stops rest) :
    (skipping .value enclosing levels).run (bytes ++ rest) = (skipped levels enclosing).run rest := by
  induction h generalizing enclosing rest with
  | null => cases enclosing <;> rfl
  | true => cases enclosing <;> rfl
  | false => cases enclosing <;> rfl
  | number h =>
    obtain ⟨b, more, f, f', rfl, hfirst, hfollow, hcomplete⟩ := NumberForm.follow_number h
    rw [List.cons_append, run, next_number hfirst]
    exact run_number hfollow hcomplete hr
  | text h =>
    have hwrap : ∀ {state b state'}, SkippedText.next state b = .ok (.more state') →
        (skipping (.text state) enclosing levels).next b =
          .ok (skipping (.text state') enclosing levels) := by
      intro state b state' h
      simp only [skipping, next, Skip.next, h]
    simp only [List.cons_append, List.append_assoc, List.nil_append]
    change (skipping (.text .plain) enclosing levels).run _ = _
    rw [run_literal (fun state => skipping (.text state) enclosing levels) hwrap h]
    cases enclosing <;> rfl
  | array h he ih =>
    refine run_enclosed (show 93 = Bracket.array.closing from rfl) rfl he ?_ ?_ rest
    · intro item hitem
      obtain ⟨b, tail, rfl, hblank, hclosing⟩ := (h item hitem).first
      exact ⟨b, tail, rfl, hblank, hclosing⟩
    · intro item hitem rest hr
      exact ih item hitem (.array :: enclosing) hr
  | object hn h he ih =>
    refine run_enclosed (show 125 = Bracket.object.closing from rfl) rfl he ?_ ?_ rest
    · intro part hpart
      obtain ⟨m, -, rfl⟩ := List.mem_map.1 hpart
      exact ⟨34, _, rfl, rfl, by decide⟩
    · intro part hpart rest hr
      obtain ⟨m, hm, rfl⟩ := List.mem_map.1 hpart
      exact run_skipped_member (hn m hm) (fun rest hr => ih m hm (.object :: enclosing) hr) hr

end Reader

end PresenceLink.Json
