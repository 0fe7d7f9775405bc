import Mathlib.Data.List.DropRight
import PresenceLink.Inbound
import PresenceLink.Proofs.Json.Grammar

/-!
# Where a message ends

A document ends with its last bracket. A reader whose document is not complete
cannot complete it with a blank, and one whose document is complete takes
nothing but blanks. So a message that was cut off is not a message, and neither
is one with anything else behind it.

* `readRecord_append`: what may stand behind a document that is read;
* `readRecord_cut`: a document that is cut off is not read;
* `parse_exactly`: a message neither shorter nor longer than it is.
-/

namespace PresenceLink

namespace Json

namespace Reader

/-- The document is not complete. -/
def Open (r : Reader) : Prop := ∀ entries, r.place ≠ .done entries

theorem finish_eq_ok_iff {r : Reader} {entries : List (Option Field)} :
    r.finish = .ok entries ↔ r.place = .done entries := by
  constructor
  · intro h
    unfold finish at h
    split at h
    · rename_i hplace
      rw [hplace, Except.ok.inj h]
    · split at h
      · split at h <;> cases h
      · cases h
    all_goals cases h
  · intro h
    rw [finish, h]

/-! ## Behind the document -/

theorem run_done {r : Reader} {entries : List (Option Field)} (hr : r.place = .done entries)
    (rest : Bytes) : r.run rest = if rest.all isBlank then .ok r else .error .malformed := by
  induction rest with
  | nil => rfl
  | cons b rest ih =>
    have hnext : r.next b = if isBlank b then .ok r else .error .malformed := by
      simp only [next, hr]
    cases hb : isBlank b with
    | true => simpa [run, hnext, hb] using ih
    | false => simp [run, hnext, hb]

/-! ## Inside the document -/

theorem open_deliver (v : Field) (levels : List OpenRecord) : (deliver v levels).Open := by
  cases levels <;> rintro _ ⟨⟩

theorem open_nameClosed {name : String} {levels : List OpenRecord} {r : Reader}
    (h : nameClosed name levels = .ok r) : r.Open := by
  cases levels with
  | nil => cases h
  | cons f outer =>
    rw [nameClosed] at h
    cases hf : f.select name with
    | none => simp [hf] at h
    | some f' =>
      simp only [hf, Except.ok.injEq] at h
      subst h
      rintro _ ⟨⟩

/-- Only a bracket completes a document. -/
theorem open_next {r r' : Reader} (hr : r.Open) {b : UInt8} (hb : isBlank b = true)
    (h : r.next b = .ok r') : r'.Open := by
  have hafter : ∀ {levels : List OpenRecord}, afterNext levels b = .ok r' → r'.Open := by
    intro levels h
    simp only [afterNext, hb, if_true, Except.ok.injEq] at h
    subst h
    rintro _ ⟨⟩
  cases hplace : r.place with
  | done entries => exact absurd hplace (hr entries)
  | document members =>
    simp only [next, hplace, hb, if_true, Except.ok.injEq] at h
    exact h ▸ hr
  | value shape =>
    simp only [next, hplace, hb, if_true, Except.ok.injEq] at h
    exact h ▸ hr
  | null owed =>
    cases owed with
    | nil => simp [next, hplace] at h
    | cons c owed =>
      simp only [next, hplace] at h
      split at h
      · cases h
      split at h <;> cases h
      · exact open_deliver _ _
      · rintro _ ⟨⟩
  | number form seen =>
    simp only [next, hplace] at h
    split at h
    · cases h
    · cases h
      rintro _ ⟨⟩
    · split at h
      · cases h
      · exact hafter h
  | text state =>
    simp only [next, hplace] at h
    split at h <;> cases h
    · rintro _ ⟨⟩
    · exact open_deliver _ _
  | mismatch state =>
    simp only [next, hplace] at h
    split at h <;> cases h
    rintro _ ⟨⟩
  | skip state =>
    simp only [next, hplace] at h
    split at h
    · cases h
    · cases h
      rintro _ ⟨⟩
    · cases h
      rintro _ ⟨⟩
    · exact hafter h
  | name state =>
    simp only [next, hplace] at h
    split at h
    · cases h
    · cases h
      rintro _ ⟨⟩
    · exact open_nameClosed h
  | colon =>
    simp only [next, hplace, colonNext, hb, if_true, Except.ok.injEq] at h
    subst h
    rintro _ ⟨⟩
  | opened =>
    simp only [next, hplace, openedNext, hb, if_true, Except.ok.injEq] at h
    subst h
    rintro _ ⟨⟩
  | after =>
    simp only [next, hplace] at h
    exact hafter h
  | comma =>
    simp only [next, hplace, commaNext, hb, if_true, Except.ok.injEq] at h
    subst h
    rintro _ ⟨⟩

theorem open_run {r r' : Reader} (hr : r.Open) {blanks : Bytes} (hb : Blanks blanks)
    (h : r.run blanks = .ok r') : r'.Open := by
  induction blanks generalizing r with
  | nil =>
    cases h
    exact hr
  | cons b blanks ih =>
    obtain ⟨hb, hblanks⟩ := List.forall_mem_cons.1 hb
    rw [run_cons] at h
    cases hnext : r.next b with
    | error fault => simp [hnext, Except.bind] at h
    | ok next =>
      rw [hnext] at h
      exact ih (open_next hr hb hnext) hblanks h

end Reader

/-! ## Records -/

variable {known : List (String × Shape)} {entries : List (Option Field)}

theorem readRecord_eq_ok_iff {bytes : Bytes} : readRecord known bytes = .ok entries ↔
    ∃ r, (Reader.start known).run bytes = .ok r ∧ r.place = .done entries := by
  rw [readRecord]
  cases (Reader.start known).run bytes with
  | error fault => simp [Except.bind]
  | ok r => simp [Except.bind, Reader.finish_eq_ok_iff]

/-- What may stand behind a document that is read. -/
theorem readRecord_append {bytes : Bytes} (h : readRecord known bytes = .ok entries)
    (rest : Bytes) :
    readRecord known (bytes ++ rest) = if rest.all isBlank then .ok entries else .error .malformed := by
  obtain ⟨r, hrun, hr⟩ := readRecord_eq_ok_iff.1 h
  have hrest : (Reader.start known).run (bytes ++ rest) =
      if rest.all isBlank then .ok r else .error .malformed := by
    rw [Reader.run_append, hrun]
    exact Reader.run_done hr rest
  rw [readRecord, hrest]
  split
  · exact Reader.finish_eq_ok_iff.2 hr
  · rfl

/-- A document is complete before the blanks behind it. -/
theorem readRecord_of_append_blanks {bytes blanks : Bytes} (hb : Blanks blanks)
    (h : readRecord known (bytes ++ blanks) = .ok entries) :
    readRecord known bytes = .ok entries := by
  obtain ⟨r', hrun, hr'⟩ := readRecord_eq_ok_iff.1 h
  rw [Reader.run_append] at hrun
  cases hr : (Reader.start known).run bytes with
  | error fault => simp [hr, Except.bind] at hrun
  | ok r =>
    rw [hr] at hrun
    by_cases hopen : r.Open
    · exact absurd hr' (Reader.open_run hopen hb hrun entries)
    · obtain ⟨found, hplace⟩ := not_forall_not.1 hopen
      have hsame := (Reader.run_done hplace blanks).symm.trans hrun
      rw [if_pos (List.all_eq_true.2 hb)] at hsame
      cases hsame
      exact readRecord_eq_ok_iff.2 ⟨r', hr, hr'⟩

/-- A document that is cut off is not read. -/
theorem readRecord_cut {front lost : Bytes} {b : UInt8} (hb : isBlank b = false)
    (h : readRecord known (front ++ (lost ++ [b])) = .ok entries) :
    ∃ fault, readRecord known front = .error fault := by
  cases hfront : readRecord known front with
  | error fault => exact ⟨fault, rfl⟩
  | ok found =>
    have hcut := (readRecord_append hfront _).symm.trans h
    simp [hb] at hcut

end Json

namespace InboundMessage

open Json

/-- **A message is neither shorter nor longer than it is.** Without the blanks at
its end, a payload that is a message is cut off nowhere and takes nothing but
blanks: what is left of it is no message, and neither is it with anything else
behind it. -/
theorem parse_exactly {payload : Bytes} {m : InboundMessage} (h : parse payload = .ok m) :
    (∀ front, front <+: payload.rdropWhile isBlank → front ≠ payload.rdropWhile isBlank →
      ∃ fault, parse front = .error fault) ∧
    ∀ rest, parse (payload.rdropWhile isBlank ++ rest) =
      if rest.all isBlank then .ok m else .error .malformed := by
  cases hr : readRecord shape payload with
  | error fault => simp [parse, hr, Except.map] at h
  | ok entries =>
    have hm : ofEntries entries = m := by simpa [parse, hr, Except.map] using h
    have hblanks : Blanks (payload.rtakeWhile isBlank) := fun b => List.mem_rtakeWhile_imp
    have hsplit : payload.rdropWhile isBlank ++ payload.rtakeWhile isBlank = payload :=
      List.rdropWhile_append_rtakeWhile
    rw [← hsplit] at hr
    have hbody := readRecord_of_append_blanks hblanks hr
    constructor
    · rintro front ⟨lost, hlost⟩ hne
      have hcut : lost ≠ [] := fun hnil => hne (by simpa [hnil] using hlost)
      have hlast : isBlank (lost.getLast hcut) = false := by
        have hlast := List.rdropWhile_last_not isBlank payload (by simp [← hlost, hcut])
        simpa [← hlost, List.getLast_append_of_ne_nil _ hcut] using hlast
      rw [← hlost, ← List.dropLast_append_getLast hcut] at hbody
      obtain ⟨fault, hfront⟩ := readRecord_cut hlast hbody
      exact ⟨fault, by rw [parse, hfront]; rfl⟩
    · intro rest
      rw [parse, readRecord_append hbody]
      split
      · rw [← hm]
        rfl
      · rfl

/-- Brackets in texts and in values that are skipped end nothing. -/
theorem parse_exactly_of_brackets :
    parse (Utf8.ofString "\x7b\"cmd\":\"]\x7d\",\"more\":[1.5,\x7b\"a\":\"\x7d]\"\x7d]\x7d \n") =
        .ok { command := some "]\x7d" } ∧
      (∃ fault, parse (Utf8.ofString "\x7b\"cmd\":\"]\x7d\",\"more\":[1.5,\x7b\"a\":\"\x7d") =
        .error fault) ∧
      parse (Utf8.ofString "\x7b\"cmd\":\"]\x7d\",\"more\":[1.5,\x7b\"a\":\"\x7d]\"\x7d]\x7d\x7d") =
        .error .malformed := by
  have h : parse (Utf8.ofString
      "\x7b\"cmd\":\"]\x7d\",\"more\":[1.5,\x7b\"a\":\"\x7d]\"\x7d]\x7d \n") =
      .ok { command := some "]\x7d" } := by decide +kernel
  obtain ⟨hcut, hmore⟩ := parse_exactly h
  exact ⟨h, hcut _ (by decide +kernel) (by decide +kernel), hmore [125]⟩

end InboundMessage

end PresenceLink
