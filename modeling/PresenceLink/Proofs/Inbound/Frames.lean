import Mathlib.Logic.Relation
import PresenceLink.Inbound
import PresenceLink.Proofs.Json.Records

/-!
# What a message of the peer depends on

A message is what the values of its known members say. Its members may come in
any order, with blanks anywhere between the tokens and with other members of
any kind among them; a known member may be missing or `null`; and the message
or its data may be an array instead of an object. A known member that comes
twice makes the message unreadable.

* `Content.Rewrites`: what may be done to a record;
* `readable_object_iff`, `readable_array_iff`: when a record can be read;
* `Rewrites.keeps`, `Rewrites.given`: what is rewritten can still be read, and
  says the same;
* `parse_spells`: what any spelling of a message is read as;
* `parse_by_known_values`: messages that are rewritten and spelled anew.
-/

namespace PresenceLink.Json.Content

/-! ## The values of a record -/

/-- The value of a member, by its name in an object and by its place in an
array. -/
def value? (c : Content) (i : Nat) (name : String) : Option Content :=
  match c with
  | object members => members.lookup name
  | array items => items[i]?
  | _ => none

/-- A value that is not left out. -/
def given : Content → Option Content
  | null => none
  | c => some c

/-- The value of a member that is neither missing nor `null`. -/
def given? (c : Content) (i : Nat) (name : String) : Option Content :=
  (c.value? i name).bind given

/-- A record that says the same as another. Known members may be written in any
order, others may be added, `null` may stand for a member that is missing, and
the values may be written as an array; the same may be done to a record inside
another. -/
inductive Rewrites : List (String × Shape) → Content → Content → Prop
  | permute {known : List (String × Shape)} {members members' : List (String × Content)}
      (h : members.Perm members') : Rewrites known (.object members) (.object members')
  | insert {known : List (String × Shape)} (name : String) (c : Content)
      (members : List (String × Content)) (hname : ∀ k ∈ known, k.1 ≠ name) :
      Rewrites known (.object members) (.object ((name, c) :: members))
  | null {known : List (String × Shape)} {name : String} {members : List (String × Content)}
      (h : members.lookup name = none) :
      Rewrites known (.object members) (.object ((name, .null) :: members))
  | positional {known : List (String × Shape)} (members : List (String × Content)) :
      Rewrites known (.object members)
        (.array (known.map fun k => (members.lookup k.1).getD .null))
  | inside {known inner : List (String × Shape)} {name : String} {c c' : Content}
      (members : List (String × Content)) (hk : (name, .record inner) ∈ known)
      (h : Rewrites inner c c') :
      Rewrites known (.object ((name, c) :: members)) (.object ((name, c') :: members))

/-! ## What can be read -/

/-- A value of some shape that can be read. -/
def Readable (shape : Shape) (c : Content) : Prop := Fits shape c ∧ ¬ Repeats shape c

theorem readable_null (shape : Shape) : Readable shape .null := ⟨.null shape, nofun⟩

section Records

variable {known : List (String × Shape)} {members : List (String × Content)}

/-- An object can be read if its known members come once and can be read. -/
theorem readable_object_iff : Readable (.record known) (.object members) ↔
    ∀ k ∈ known, (members.countP fun m => m.1 == k.1) ≤ 1 ∧
      ∀ c, (k.1, c) ∈ members → Readable k.2 c := by
  constructor
  · rintro ⟨hf, hr⟩ k hk
    refine ⟨Nat.le_of_not_lt fun hcount => hr (.twice hk hcount), fun c hc => ?_⟩
    cases hf with
    | object hf => exact ⟨hf k hk c hc, fun hrc => hr (.member hk hc hrc)⟩
  · intro h
    refine ⟨.object fun k hk c hc => ((h k hk).2 c hc).1, fun hr => ?_⟩
    cases hr with
    | twice hk hcount => exact Nat.not_le.2 hcount (h _ hk).1
    | member hk hc hr => exact ((h _ hk).2 _ hc).2 hr

/-- An array can be read if it is not too long and its items can be read. -/
theorem readable_array_iff {items : List Content} : Readable (.record known) (.array items) ↔
    items.length ≤ known.length ∧
      ∀ (i : Nat) k c, known[i]? = some k → items[i]? = some c → Readable k.2 c := by
  constructor
  · rintro ⟨hf, hr⟩
    cases hf with
    | array hlength hf =>
      exact ⟨hlength, fun i k c hk hc => ⟨hf i k c hk hc, fun hrc => hr (.item hk hc hrc)⟩⟩
  · rintro ⟨hlength, h⟩
    refine ⟨.array hlength fun i k c hk hc => (h i k c hk hc).1, fun hr => ?_⟩
    cases hr with
    | item hk hc hr => exact (h _ _ _ hk hc).2 hr

/-- A name that comes once has the value that it comes with. -/
theorem lookup_eq_some_iff {name : String} (h : (members.countP fun m => m.1 == name) ≤ 1)
    {c : Content} : members.lookup name = some c ↔ (name, c) ∈ members := by
  induction members with
  | nil => simp
  | cons m members ih =>
    obtain ⟨other, d⟩ := m
    by_cases hname : other = name
    · subst hname
      rw [List.countP_cons_of_pos (by simp)] at h
      have hothers : (other, c) ∉ members := by
        intro hmem
        have hpos : 0 < members.countP fun m => m.1 == other :=
          List.countP_pos_iff.2 ⟨_, hmem, by simp⟩
        omega
      rw [List.lookup_cons_self]
      simp [hothers, eq_comm]
    · rw [List.countP_cons_of_neg (by simp [hname])] at h
      rw [List.lookup_cons, beq_false_of_ne (Ne.symm hname)]
      simp [ih h, Ne.symm hname]

theorem lookup_perm {name : String} (h : (members.countP fun m => m.1 == name) ≤ 1)
    {members' : List (String × Content)} (hperm : members.Perm members') :
    members'.lookup name = members.lookup name := by
  refine Option.ext fun c => ?_
  rw [lookup_eq_some_iff h, lookup_eq_some_iff (by rwa [← hperm.countP_eq]), hperm.mem_iff]

theorem mem_of_lookup {name : String} {c : Content} (h : members.lookup name = some c) :
    (name, c) ∈ members := by
  obtain ⟨before, after, rfl, -⟩ := List.lookup_eq_some_iff.1 h
  simp

/-- The value of a known member can be read if the record can. -/
theorem Readable.value {c : Content} (h : Readable (.record known) c) {i : Nat}
    {k : String × Shape} (hk : known[i]? = some k) {d : Content} (hd : c.value? i k.1 = some d) :
    Readable k.2 d := by
  cases c with
  | object members =>
    exact (readable_object_iff.1 h k (List.mem_of_getElem? hk)).2 d (mem_of_lookup hd)
  | array items => exact (readable_array_iff.1 h).2 i k d hk hd
  | _ => cases hd

/-- A known name has one shape. -/
theorem known_ext (hd : Shape.Distinct (.record known)) {k k' : String × Shape} (hk : k ∈ known)
    (hk' : k' ∈ known) (hname : k.1 = k'.1) : k = k' := by
  cases hd with
  | record hnames _ => exact List.inj_on_of_nodup_map hnames hk hk' hname

/-! ## What is rewritten can be read -/

theorem Readable.permute {members' : List (String × Content)}
    (h : Readable (.record known) (.object members)) (hperm : members.Perm members') :
    Readable (.record known) (.object members') := by
  rw [readable_object_iff] at h ⊢
  intro k hk
  obtain ⟨honce, hvalue⟩ := h k hk
  exact ⟨by rwa [← hperm.countP_eq], fun c hc => hvalue c (hperm.mem_iff.2 hc)⟩

theorem Readable.insert {name : String} (h : Readable (.record known) (.object members))
    (hname : ∀ k ∈ known, k.1 ≠ name) (d : Content) :
    Readable (.record known) (.object ((name, d) :: members)) := by
  rw [readable_object_iff] at h ⊢
  intro k hk
  obtain ⟨honce, hvalue⟩ := h k hk
  refine ⟨by rwa [List.countP_cons_of_neg (by simp [Ne.symm (hname k hk)])], fun c hc => ?_⟩
  rcases List.mem_cons.1 hc with he | hc
  · exact absurd (Prod.mk.inj he).1 (hname k hk)
  · exact hvalue c hc

theorem Readable.null {name : String} (h : Readable (.record known) (.object members))
    (hl : members.lookup name = none) :
    Readable (.record known) (.object ((name, .null) :: members)) := by
  rw [readable_object_iff] at h ⊢
  intro k hk
  obtain ⟨honce, hvalue⟩ := h k hk
  refine ⟨?_, fun c hc => ?_⟩
  · by_cases hname : name = k.1
    · have hfirst : (((name, Content.null) :: members).countP fun m => m.1 == k.1) = 1 := by
        rw [List.countP_cons_of_pos (by simp [hname]), countP_of_lookup_none (hname ▸ hl)]
      exact Nat.le_of_eq hfirst
    · rwa [List.countP_cons_of_neg (by simp [hname])]
  · rcases List.mem_cons.1 hc with he | hc
    · obtain ⟨-, rfl⟩ := Prod.mk.inj he
      exact readable_null k.2
    · exact hvalue c hc

theorem Readable.positional (h : Readable (.record known) (.object members)) :
    Readable (.record known) (.array (known.map fun k => (members.lookup k.1).getD .null)) := by
  refine readable_array_iff.2 ⟨Nat.le_of_eq (List.length_map _), fun i k c hk hc => ?_⟩
  rw [List.getElem?_map, hk, Option.map_some, Option.some.injEq] at hc
  subst hc
  cases hl : members.lookup k.1 with
  | none => exact readable_null k.2
  | some d => exact (readable_object_iff.1 h k (List.mem_of_getElem? hk)).2 d (mem_of_lookup hl)

/-- The value of a known member may be replaced by another that can be read. -/
theorem Readable.replace {name : String} {shape : Shape} {d d' : Content}
    (h : Readable (.record known) (.object ((name, d) :: members)))
    (hd : Shape.Distinct (.record known)) (hk : (name, shape) ∈ known) (hd' : Readable shape d') :
    Readable (.record known) (.object ((name, d') :: members)) := by
  rw [readable_object_iff] at h ⊢
  intro k hk'
  obtain ⟨honce, hvalue⟩ := h k hk'
  refine ⟨by rwa [List.countP_cons] at honce ⊢, fun c hc => ?_⟩
  rcases List.mem_cons.1 hc with he | hc
  · obtain ⟨hname, rfl⟩ := Prod.mk.inj he
    rwa [known_ext hd hk' hk hname]
  · exact hvalue c (List.mem_cons_of_mem _ hc)

end Records

variable {known : List (String × Shape)}

/-- A record that is rewritten can still be read. -/
theorem Rewrites.keeps {c c' : Content} (h : Rewrites known c c')
    (hd : Shape.Distinct (.record known)) (hc : Readable (.record known) c) :
    Readable (.record known) c' := by
  induction h with
  | permute hperm => exact hc.permute hperm
  | insert name d members hname => exact hc.insert hname d
  | null hl => exact hc.null hl
  | positional members => exact hc.positional
  | inside members hk _ ih =>
    have hinner := (readable_object_iff.1 hc _ hk).2 _ List.mem_cons_self
    cases hd with
    | record hnames hshapes =>
      exact hc.replace (.record hnames hshapes) hk (ih (hshapes _ hk) hinner)

/-! ## What is rewritten says the same -/

/-- A record that is rewritten has the same values, or a record in it that is
rewritten. -/
theorem Rewrites.given {c c' : Content} (h : Rewrites known c c')
    (hd : Shape.Distinct (.record known)) (hc : Readable (.record known) c) {i : Nat}
    {k : String × Shape} (hk : known[i]? = some k) :
    c'.given? i k.1 = c.given? i k.1 ∨
      ∃ inner d d', k.2 = .record inner ∧ c.given? i k.1 = some d ∧ c'.given? i k.1 = some d' ∧
        Rewrites inner d d' := by
  have hmem := List.mem_of_getElem? hk
  cases h with
  | permute hperm =>
    left
    simp only [given?, value?, lookup_perm (readable_object_iff.1 hc k hmem).1 hperm]
  | insert name d members hname =>
    left
    simp only [given?, value?, List.lookup_cons, beq_false_of_ne (hname k hmem)]
  | @null _ name members hl =>
    left
    by_cases hname : k.1 = name
    · simp only [given?, value?, hname, List.lookup_cons_self, hl]
      rfl
    · simp only [given?, value?, List.lookup_cons, beq_false_of_ne hname]
  | positional members =>
    left
    simp only [given?, value?, List.getElem?_map, hk, Option.map_some]
    cases members.lookup k.1 <;> rfl
  | @inside _ inner name d d' members hk' hinner =>
    by_cases hname : k.1 = name
    · right
      obtain rfl := known_ext hd hmem hk' hname
      refine ⟨inner, d, d', rfl, ?_, ?_, hinner⟩
      · simp only [given?, value?, List.lookup_cons_self]
        cases hinner <;> rfl
      · simp only [given?, value?, List.lookup_cons_self]
        cases hinner <;> rfl
    · left
      simp only [given?, value?, List.lookup_cons, beq_false_of_ne hname]

theorem Rewrites.ne_null {c c' : Content} (h : Rewrites known c c') : c' ≠ .null := by
  cases h <;> nofun

/-- A text or an integer is not rewritten. -/
theorem Rewrites.given_leaf {c c' : Content} (h : Rewrites known c c')
    (hd : Shape.Distinct (.record known)) (hc : Readable (.record known) c) {i : Nat}
    {k : String × Shape} (hk : known[i]? = some k) (hleaf : ∀ inner, k.2 ≠ .record inner) :
    c'.given? i k.1 = c.given? i k.1 := by
  rcases h.given hd hc hk with he | ⟨inner, d, d', hrecord, -⟩
  · exact he
  · exact absurd hrecord (hleaf inner)

/-! ## What is read -/

theorem given_eq_some_iff {c d : Content} : c.given = some d ↔ c = d ∧ d ≠ .null := by
  cases c <;> cases d <;> simp [given]

/-- A record is read as the values of its known members. -/
theorem field_record {c : Content} (hf : Fits (.record known) c) (hc : c ≠ .null) :
    ∃ entries, field (.record known) c = .record entries ∧
      ∀ (i : Nat) k, known[i]? = some k → entries.getD i none = (c.value? i k.1).map (field k.2) := by
  cases hf with
  | null => exact absurd rfl hc
  | @object _ members hf =>
    refine ⟨_, field_object known members, fun i k hk => ?_⟩
    rw [List.getD_eq_getElem?_getD, List.getElem?_map, hk]
    rfl
  | @array _ items _ hf =>
    refine ⟨_, field_array known items, fun i k hk => ?_⟩
    rw [List.getD_eq_getElem?_getD, List.getElem?_mapIdx, hk]
    rfl

def text? : Content → Option String
  | text s => some s
  | _ => none

def int32? : Content → Option Int32
  | int32 n => some n
  | _ => none

theorem text?_field (c : Option Content) :
    Field.text? (c.map (field .text)) = (c.bind given).bind text? := by
  rcases c with - | c
  · rfl
  · cases c <;> simp [field, given, Field.text?, text?]

theorem int32?_field (c : Option Content) :
    Field.int32? (c.map (field .int32)) = (c.bind given).bind int32? := by
  rcases c with - | c
  · rfl
  · cases c <;> simp [field, given, Field.int32?, int32?]

end PresenceLink.Json.Content

namespace PresenceLink

open Json Json.Content

namespace InboundData

/-- The data of a message by the values of its members. -/
def ofContent (c : Content) : InboundData where
  code := (c.given? 0 "code").bind int32?
  message := (c.given? 1 "message").bind text?
  secret := (c.given? 2 "secret").bind text?

theorem shape_distinct : Shape.Distinct (.record shape) := by
  refine .record (by decide) fun k hk => ?_
  simp only [shape, List.mem_cons, List.not_mem_nil, or_false] at hk
  rcases hk with rfl | rfl | rfl
  · exact .int32
  · exact .text
  · exact .text

theorem ofEntries_field {c : Content} (h : Readable (.record shape) c) (hc : c ≠ .null) :
    (Field.entries? (some (field (.record shape) c))).map ofEntries = some (ofContent c) := by
  obtain ⟨entries, he, hentries⟩ := field_record h.1 hc
  rw [he, Field.entries?, Option.map_some, ofEntries, hentries 0 _ rfl, hentries 1 _ rfl,
    hentries 2 _ rfl, int32?_field, text?_field, text?_field]
  rfl

/-- Data that is rewritten says the same. -/
theorem ofContent_rewrites {c c' : Content} (h : Rewrites shape c c')
    (hc : Readable (.record shape) c) : ofContent c' = ofContent c := by
  rw [ofContent, h.given_leaf shape_distinct hc (i := 0) rfl nofun,
    h.given_leaf shape_distinct hc (i := 1) rfl nofun,
    h.given_leaf shape_distinct hc (i := 2) rfl nofun, ofContent]

end InboundData

namespace InboundMessage

/-- A message by the values of its members. -/
def ofContent (c : Content) : InboundMessage where
  command := (c.given? 0 "cmd").bind text?
  event := (c.given? 1 "evt").bind text?
  nonce := (c.given? 2 "nonce").bind text?
  data := (c.given? 3 "data").map InboundData.ofContent

theorem shape_distinct : Shape.Distinct (.record shape) := by
  refine .record (by decide) fun k hk => ?_
  simp only [shape, List.mem_cons, List.not_mem_nil, or_false] at hk
  rcases hk with rfl | rfl | rfl | rfl
  · exact .text
  · exact .text
  · exact .text
  · exact InboundData.shape_distinct

theorem ofEntries_field {c : Content} (h : Readable (.record shape) c) (hc : c ≠ .null) :
    (Field.entries? (some (field (.record shape) c))).map ofEntries = some (ofContent c) := by
  obtain ⟨entries, he, hentries⟩ := field_record h.1 hc
  have hdata : (Field.entries? ((c.value? 3 "data").map (field (.record InboundData.shape)))).map
      InboundData.ofEntries = (c.given? 3 "data").map InboundData.ofContent := by
    cases hv : c.value? 3 "data" with
    | none => simp [given?, hv, Field.entries?]
    | some d =>
      have hread : Readable (.record InboundData.shape) d := h.value (i := 3) rfl hv
      by_cases hd : d = .null
      · subst hd
        simp [given?, hv, given, field_null, Field.entries?]
      · rw [given?, hv, Option.bind_some, given_eq_some_iff.2 ⟨rfl, hd⟩]
        exact InboundData.ofEntries_field hread hd
  rw [he, Field.entries?, Option.map_some, ofEntries, hentries 0 _ rfl, hentries 1 _ rfl,
    hentries 2 _ rfl, hentries 3 _ rfl, text?_field, text?_field, text?_field, hdata]
  rfl

/-- A message that is rewritten says the same. -/
theorem ofContent_rewrites {c c' : Content} (h : Rewrites shape c c')
    (hc : Readable (.record shape) c) : ofContent c' = ofContent c := by
  have hdata : (c'.given? 3 "data").map InboundData.ofContent =
      (c.given? 3 "data").map InboundData.ofContent := by
    rcases h.given shape_distinct hc (i := 3) rfl with he | ⟨inner, d, d', hinner, hd, hd', hr⟩
    · rw [he]
    · cases hinner
      obtain ⟨v, hv, hg⟩ := Option.bind_eq_some_iff.1 hd
      obtain ⟨rfl, -⟩ := given_eq_some_iff.1 hg
      rw [hd, hd', Option.map_some, Option.map_some,
        InboundData.ofContent_rewrites hr (hc.value (i := 3) rfl hv)]
  rw [ofContent, h.given_leaf shape_distinct hc (i := 0) rfl nofun,
    h.given_leaf shape_distinct hc (i := 1) rfl nofun,
    h.given_leaf shape_distinct hc (i := 2) rfl nofun, hdata, ofContent]

/-- A message that is rewritten again and again. -/
theorem ofContent_rewritten {c c' : Content} (h : Relation.ReflTransGen (Rewrites shape) c c')
    (hc : Readable (.record shape) c) (hne : c ≠ .null) :
    Readable (.record shape) c' ∧ c' ≠ .null ∧ ofContent c' = ofContent c := by
  induction h with
  | refl => exact ⟨hc, hne, rfl⟩
  | tail _ h ih =>
    obtain ⟨hread, -, he⟩ := ih
    exact ⟨h.keeps shape_distinct hread, h.ne_null, (ofContent_rewrites h hread).trans he⟩

theorem parse_spells {c : Content} {bytes before after : Bytes} (h : Spells c bytes)
    (hc : Readable (.record shape) c) (hne : c ≠ .null) (hb : Blanks before) (ha : Blanks after) :
    parse (before ++ bytes ++ after) = .ok (ofContent c) := by
  have hread := readRecord_spells h shape_distinct hc.1 hne hb ha
  rw [read?_of_not_repeats hc.2] at hread
  obtain ⟨entries, he, hentries⟩ := Option.map_eq_some_iff.1 (ofEntries_field hc hne)
  dsimp only at hread
  rw [parse, hread, he, ← hentries]
  rfl

theorem parse_repeats {c : Content} {bytes before after : Bytes} (h : Spells c bytes)
    (hf : Fits (.record shape) c) (hr : Repeats (.record shape) c) (hb : Blanks before)
    (ha : Blanks after) : parse (before ++ bytes ++ after) = .error .mismatch := by
  have hne : c ≠ .null := by
    rintro rfl
    exact (readable_null _).2 hr
  have hread := readRecord_spells h shape_distinct hf hne hb ha
  rw [read?_of_repeats hr] at hread
  rw [parse, hread]
  rfl

/-- **A message is read as the values of its known members.** If these are of
the right types and none of them comes twice, it makes no difference how the
message is rewritten and spelled. If one of them comes twice, no spelling of the
message is read. -/
theorem parse_by_known_values {c : Content} (hf : Fits (.record shape) c) (hc : c ≠ .null) :
    (¬ Repeats (.record shape) c → ∀ c', Relation.ReflTransGen (Rewrites shape) c c' →
      ∀ before bytes after, Blanks before → Spells c' bytes → Blanks after →
        parse (before ++ bytes ++ after) = .ok (ofContent c)) ∧
    (Repeats (.record shape) c →
      ∀ before bytes after, Blanks before → Spells c bytes → Blanks after →
        parse (before ++ bytes ++ after) = .error .mismatch) := by
  refine ⟨fun hr c' h before bytes after hb hs ha => ?_, fun hr before bytes after hb hs ha =>
    parse_repeats hs hf hr hb ha⟩
  obtain ⟨hread, hne, he⟩ := ofContent_rewritten h ⟨hf, hr⟩ hc
  rw [parse_spells hs hread hne hb ha, he]

/-- A member with no escapes and no blanks. -/
def plainMember (name value : String) : MemberForm :=
  ⟨Utf8.ofString name, [], [], Utf8.ofString value, by simp [Blanks], by simp [Blanks]⟩

/-- An unknown member and blanks make no difference; a second number does. -/
theorem parse_by_known_values_of_nonce :
    parse (Utf8.ofString "\x7b\"v\":true, \"nonce\":\"7\"\x7d\n") = .ok { nonce := some "7" } ∧
      parse (Utf8.ofString "\x7b\"nonce\":\"7\",\"nonce\":\"7\"\x7d") = .error .mismatch := by
  have hnonce : SpellsText "nonce".toList (Utf8.ofString "nonce") := .plain (by decide)
  have hvalue : Spells (.text "7") (Utf8.ofString "\"7\"") := .text (.plain (by decide))
  have hblank : Blanks [] := by simp [Blanks]
  have hspace : Blanks [32] := by simp [Blanks, isBlank]
  have hknown : ("nonce", Shape.text) ∈ shape := by simp [shape]
  have hfits : ∀ members : List (String × Content), (∀ m ∈ members, m = ("nonce", .text "7")) →
      Fits (.record shape) (.object members) := by
    intro members h
    refine .object fun k hk c hc => ?_
    obtain ⟨hname, rfl⟩ := Prod.mk.inj (h _ hc)
    rw [known_ext shape_distinct hk hknown hname]
    exact .text "7"
  constructor
  · have hs : Spells (.object [("v", .other), ("nonce", .text "7")])
        (Utf8.ofString "\x7b\"v\":true, \"nonce\":\"7\"\x7d") := by
      have he : Enclosed 123 125
          [(plainMember "v" "true").bytes, (plainMember "nonce" "\"7\"").bytes]
          (Utf8.ofString "\x7b\"v\":true, \"nonce\":\"7\"\x7d") :=
        .parts (.comma hblank hblank (.last hspace hblank))
      refine @Spells.object [(plainMember "v" "true", "v", .other),
        (plainMember "nonce" "\"7\"", "nonce", .text "7")] _ ?_ ?_ he
      · simpa using ⟨.plain (by decide), hnonce⟩
      · simpa using ⟨.other .true, hvalue⟩
    have htext : ∀ shape, ¬ Repeats shape (.text "7") := by
      intro shape hr
      cases hr
    have hr : ¬ Repeats (.record shape) (.object [("nonce", .text "7")]) := by
      intro hr
      cases hr with
      | twice _ hcount => exact absurd (Nat.le_trans hcount List.countP_le_length) (by decide)
      | member _ hc hr =>
        obtain ⟨-, rfl⟩ := Prod.mk.inj (List.mem_singleton.1 hc)
        exact htext _ hr
    have hf := hfits [("nonce", .text "7")] (by simp)
    exact (parse_by_known_values hf (by simp)).1 hr _ (.single (.insert "v" .other _ (by decide)))
      [] _ [10] hblank hs (by simp [Blanks, isBlank])
  · have hs : Spells (.object [("nonce", .text "7"), ("nonce", .text "7")])
        (Utf8.ofString "\x7b\"nonce\":\"7\",\"nonce\":\"7\"\x7d") := by
      have he : Enclosed 123 125
          [(plainMember "nonce" "\"7\"").bytes, (plainMember "nonce" "\"7\"").bytes]
          (Utf8.ofString "\x7b\"nonce\":\"7\",\"nonce\":\"7\"\x7d") :=
        .parts (.comma hblank hblank (.last hblank hblank))
      refine @Spells.object [(plainMember "nonce" "\"7\"", "nonce", .text "7"),
        (plainMember "nonce" "\"7\"", "nonce", .text "7")] _ ?_ ?_ he
      · simpa [plainMember] using hnonce
      · simpa [plainMember] using hvalue
    have hf := hfits [("nonce", .text "7"), ("nonce", .text "7")] (by simp)
    exact (parse_by_known_values hf (by simp)).2 (.twice hknown (by decide)) [] _ [] hblank hs hblank

end InboundMessage

end PresenceLink
