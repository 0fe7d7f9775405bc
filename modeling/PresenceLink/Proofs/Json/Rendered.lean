import PresenceLink.Proofs.Json.Contents
import PresenceLink.Proofs.Json.Unambiguous

/-!
# What is written is well formed

The writer keeps to the grammar: a text is written in one of its spellings, and
a value as a well-formed value, however deep it is nested and whatever its texts
contain. So whoever is not interested in a part of it can skip that part.

* `spellsText_escape`: how a text is written is one of its spellings;
* `enclosed_joined`: parts with commas and no blanks between brackets;
* `isValue_render`: a written value is well formed;
* `spells_object`: what a written object says.
-/

namespace PresenceLink.Json

/-! ## Texts -/

theorem SpellsText.escape {cs : List Char} {literal : Bytes} (h : SpellsText cs literal) (c : Char) :
    SpellsText (c :: cs) (Json.escape c ++ literal) := by
  unfold Json.escape
  split
  · subst c
    exact .short (b := 34) rfl h
  split
  · subst c
    exact .short (b := 92) rfl h
  split
  · subst c
    exact .short (b := 98) rfl h
  split
  · subst c
    exact .short (b := 116) rfl h
  split
  · subst c
    exact .short (b := 110) rfl h
  split
  · subst c
    exact .short (b := 102) rfl h
  split
  · subst c
    exact .short (b := 114) rfl h
  split
  · rename_i hlow
    have htrail : isTrail c.toNat = false := by simp [isTrail]; omega
    have hlead : isLead c.toNat = false := by simp [isLead]; omega
    have hspelled := SpellsText.unit (codeUnit?_hexDigit c.toNat hlow) hlead htrail h
    rwa [Utf8.ofNat_toNat] at hspelled
  · rename_i hquote hslash _ _ _ _ _ hlow
    exact .raw (Nat.not_lt.1 hlow) hquote hslash h

/-- How a text is written is one of its spellings. -/
theorem spellsText_escape (cs : List Char) : SpellsText cs (cs.flatMap escape) := by
  induction cs with
  | nil => exact .nil
  | cons c cs ih => exact ih.escape c

/-! ## Parts between brackets -/

theorem blanks_nil : Blanks [] := by simp [Blanks]

section Parts

variable {α : Type} (part : α → Bytes)

theorem listed_joined (a : α) (items : List α) :
    Listed ((a :: items).map part) (joined part true (a :: items)) := by
  induction items generalizing a with
  | nil =>
    have h : Listed [part a] ([] ++ part a ++ []) := .last blanks_nil blanks_nil
    simpa [joined] using h
  | cons b items ih =>
    have h : Listed (part a :: (b :: items).map part)
        ([] ++ part a ++ [] ++ 44 :: joined part true (b :: items)) :=
      .comma blanks_nil blanks_nil (ih b)
    simpa [joined] using h

/-- What is written between brackets. -/
theorem enclosed_joined (opening closing : UInt8) (items : List α) :
    Enclosed opening closing (items.map part) (opening :: (joined part true items ++ [closing])) := by
  cases items with
  | nil => exact .empty blanks_nil
  | cons a items => exact .parts (listed_joined part a items)

end Parts

/-! ## Values -/

/-- A member of an object as it is written. -/
def MemberForm.written (name : String) (v : Value) : MemberForm where
  name := name.toList.flatMap escape
  before := []
  behind := []
  value := v.render
  before_blank := blanks_nil
  behind_blank := blanks_nil

theorem MemberForm.bytes_written (m : String × Value) :
    (written m.1 m.2).bytes = renderMember m := by
  simp [bytes, written, renderMember, renderText]

theorem enclosed_object (members : List (String × Value)) :
    Enclosed 123 125 (members.map fun m => (MemberForm.written m.1 m.2).bytes)
      (Value.object members).render := by
  rw [render_object, flatten_memberPieces, funext MemberForm.bytes_written]
  exact enclosed_joined renderMember 123 125 members

/-- **A written value is well formed**, whatever its texts contain. -/
theorem isValue_render (v : Value) : IsValue v.render := by
  induction v using Value.nested with
  | null => exact .null
  | bool b =>
    cases b with
    | false => exact .false
    | true => exact .true
  | number n =>
    rw [render_number]
    exact .number (isNumber_decimal n)
  | text s =>
    rw [render_text]
    exact .text (spellsText_escape s.toList).isText
  | array items ih =>
    rw [render_array, flatten_itemPieces]
    refine .array ?_ (enclosed_joined Value.render 91 93 items)
    intro item hitem
    obtain ⟨v, hv, rfl⟩ := List.mem_map.1 hitem
    exact ih v hv
  | object members ih =>
    refine @IsValue.object (members.map fun m => .written m.1 m.2) _ ?_ ?_ ?_
    · intro form hform
      obtain ⟨m, -, rfl⟩ := List.mem_map.1 hform
      exact (spellsText_escape m.1.toList).isText
    · intro form hform
      obtain ⟨m, hm, rfl⟩ := List.mem_map.1 hform
      exact ih m hm
    · rw [List.map_map]
      exact enclosed_object members

/-- What a written value says to a reader that looks for texts. -/
def Value.content : Value → Content
  | .text s => .text s
  | _ => .other

theorem spells_content (v : Value) : Spells v.content v.render := by
  cases v with
  | text s =>
    rw [render_text]
    exact .text (spellsText_escape s.toList)
  | _ => exact .other (isValue_render _)

/-- A written object says what its members say. -/
theorem spells_object (members : List (String × Value)) :
    Spells (.object (members.map fun m => (m.1, m.2.content))) (Value.object members).render := by
  have hobject := @Spells.object
    (members.map fun m => (.written m.1 m.2, m.1, m.2.content)) (Value.object members).render
  simp only [List.mem_map, forall_exists_index, and_imp, forall_apply_eq_imp_iff₂,
    List.map_map] at hobject
  exact hobject (fun m _ => spellsText_escape m.1.toList) (fun m _ => spells_content m.2)
    (enclosed_object members)

end PresenceLink.Json
