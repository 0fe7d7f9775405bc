import Mathlib.Data.Option.Basic
import PresenceLink.Command
import PresenceLink.Proofs.Json.Unambiguous

/-!
# Written commands

A written command tells the value it was written from. Each field is a member of
its own name in that value, and one that is not set, like a group without a set
field, is no member at all. So nothing of a command is lost. Requests about a
kind of event fit into the smallest slot that a client can have.

* `Presence.members_inj`: the members tell the presence, by the members of its
  groups;
* `renderText_nonceText`: the number of a command as a text;
* `encode_eq_iff`: commands with the same written form are equal;
* `length_encode_le`, `length_encode_setActivity_le`: how long a request is.
-/

namespace PresenceLink

open Json

/-! ## Members -/

namespace Json

theorem lookup_singleton (name other : String) (v : Value) :
    [(other, v)].lookup name = if name = other then some v else none := by
  rcases eq_or_ne name other with rfl | hne
  · simp
  · simp [List.lookup_cons, beq_false_of_ne hne, hne]

theorem lookup_optional (name other : String) (v : Option Value) :
    (optional other v).lookup name = if name = other then v else none := by
  cases v with
  | none => simp [optional]
  | some v => exact lookup_singleton name other v

theorem lookup_optionalText (name other : String) (s : Option String) :
    (optionalText other s).lookup name = if name = other then s.map .text else none :=
  lookup_optional name other _

/-- The value of a group, unless it is left out. -/
def grouped (members : List (String × Value)) : Option Value :=
  if members.isEmpty then none else some (.object members)

theorem lookup_group (name other : String) (members : List (String × Value)) :
    (group other members).lookup name = if name = other then grouped members else none := by
  cases members with
  | nil => simp [group, grouped]
  | cons m members => exact lookup_singleton name other _

/-- A group that is left out is the one without members. -/
theorem grouped_inj {members members' : List (String × Value)}
    (h : grouped members = grouped members') : members = members' := by
  cases members with
  | nil =>
    cases members' with
    | nil => rfl
    | cons m' members' => cases h
  | cons m members =>
    cases members' with
    | nil => cases h
    | cons m' members' => exact Value.object.inj (Option.some.inj h)

theorem map_text_inj {s t : Option String} (h : s.map Value.text = t.map .text) : s = t :=
  Option.map_injective (fun _ _ h => Value.text.inj h) h

end Json

theorem Timestamps.members_inj {t u : Timestamps} (h : t.members = u.members) : t = u := by
  have hinj : Function.Injective fun n : Int64 => Value.number n.toInt := fun m n h =>
    Int64.toInt_inj.1 (Value.number.inj h)
  have hlookup : ∀ name, t.members.lookup name = u.members.lookup name := fun name => by rw [h]
  simp only [members, List.lookup_append, lookup_optional] at hlookup
  obtain ⟨start, stop⟩ := t
  congr 1
  · exact Option.map_injective hinj (by simpa using hlookup "start")
  · exact Option.map_injective hinj (by simpa using hlookup "end")

theorem Assets.members_inj {a b : Assets} (h : a.members = b.members) : a = b := by
  have hlookup : ∀ name, a.members.lookup name = b.members.lookup name := fun name => by rw [h]
  simp only [members, List.lookup_append, lookup_optionalText] at hlookup
  obtain ⟨largeImage, largeText, smallImage, smallText⟩ := a
  congr 1
  · exact map_text_inj (by simpa using hlookup "large_image")
  · exact map_text_inj (by simpa using hlookup "large_text")
  · exact map_text_inj (by simpa using hlookup "small_image")
  · exact map_text_inj (by simpa using hlookup "small_text")

theorem Party.members_inj {p q : Party} (h : p.members = q.members) : p = q := by
  have hinj : Function.Injective fun s : UInt32 × UInt32 =>
      Value.array [.number s.1.toNat, .number s.2.toNat] := by
    rintro ⟨size, most⟩ ⟨size', most'⟩ h
    simpa [Int.natCast_inj, UInt32.toNat_inj] using h
  obtain ⟨hid, hsize⟩ := List.cons.inj h
  replace hsize := congrArg (List.lookup "size") hsize
  simp only [lookup_optional, ↓reduceIte] at hsize
  obtain ⟨id, size⟩ := p
  congr 1
  · exact Value.text.inj (Prod.mk.inj hid).2
  · exact Option.map_injective hinj hsize

theorem Secrets.members_inj {s t : Secrets} (h : s.members = t.members) : s = t := by
  have hlookup : ∀ name, s.members.lookup name = t.members.lookup name := fun name => by rw [h]
  simp only [members, List.lookup_append, lookup_optionalText] at hlookup
  obtain ⟨matchKey, join, spectate⟩ := s
  congr 1
  · exact map_text_inj (by simpa using hlookup "match")
  · exact map_text_inj (by simpa using hlookup "join")
  · exact map_text_inj (by simpa using hlookup "spectate")

theorem Presence.members_inj {p q : Presence} (h : p.members = q.members) : p = q := by
  have hinj : Function.Injective fun p : Party => Value.object p.members := fun p q h =>
    Party.members_inj (Value.object.inj h)
  have hlookup : ∀ name, p.members.lookup name = q.members.lookup name := fun name => by rw [h]
  simp only [members, List.lookup_append, lookup_optionalText, lookup_optional, lookup_group,
    lookup_singleton] at hlookup
  have hrunning : some (Value.bool p.running) = some (.bool q.running) := by
    simpa using hlookup "instance"
  obtain ⟨state, details, timestamps, assets, party, secrets, running⟩ := p
  congr 1
  · exact map_text_inj (by simpa using hlookup "state")
  · exact map_text_inj (by simpa using hlookup "details")
  · exact Timestamps.members_inj (grouped_inj (by simpa using hlookup "timestamps"))
  · exact Assets.members_inj (grouped_inj (by simpa using hlookup "assets"))
  · exact Option.map_injective hinj (by simpa using hlookup "party")
  · exact Secrets.members_inj (grouped_inj (by simpa using hlookup "secrets"))
  · exact Value.bool.inj (Option.some.inj hrunning)

/-! ## The number of a command -/

namespace Command

/-- A digit is written as itself, in a text as well. -/
theorem encodeChar_digit : ∀ n < 58, 48 ≤ n →
    Utf8.encodeChar (Char.ofNat n) = [n.toUInt8] ∧ escape (Char.ofNat n) = [n.toUInt8] := by
  decide

theorem encodeChar_of_isDigit {b : UInt8} (h : isDigit b = true) :
    Utf8.encodeChar (Char.ofNat b.toNat) = [b] ∧ escape (Char.ofNat b.toNat) = [b] := by
  simp only [isDigit, Bool.and_eq_true, decide_eq_true_eq, UInt8.le_iff_toNat_le] at h
  obtain ⟨hlow, hhigh⟩ := h
  have hdigit := encodeChar_digit b.toNat (Nat.lt_succ_of_le hhigh) hlow
  rwa [show b.toNat.toUInt8 = b by simp] at hdigit

/-- Digits as characters. -/
def digitChars (ds : Bytes) : List Char := ds.map fun b => Char.ofNat b.toNat

theorem flatMap_digitChars {write : Char → Bytes} {ds : Bytes}
    (h : ∀ b ∈ ds, write (Char.ofNat b.toNat) = [b]) : (digitChars ds).flatMap write = ds := by
  induction ds with
  | nil => rfl
  | cons b ds ih =>
    obtain ⟨hb, hds⟩ := List.forall_mem_cons.1 h
    change write (Char.ofNat b.toNat) ++ (digitChars ds).flatMap write = b :: ds
    rw [hb, ih hds]
    rfl

theorem nonceText_eq (n : UInt64) :
    nonceText n = String.ofList (digitChars (digits n.toNat)) := by
  have hds : Utf8.encode (digitChars (digits n.toNat)) = digits n.toNat :=
    flatMap_digitChars fun b hb => (encodeChar_of_isDigit (isDigit_digits _ b hb)).1
  have hread := Utf8.decode?_encode (digitChars (digits n.toNat))
  rw [hds] at hread
  rw [nonceText, Utf8.toString?, hread]
  rfl

/-- The number of a command is written as its digits in quotes. -/
theorem renderText_nonceText (n : UInt64) :
    renderText (nonceText n) = 34 :: (digits n.toNat ++ [34]) := by
  have hds : (digitChars (digits n.toNat)).flatMap escape = digits n.toNat :=
    flatMap_digitChars fun b hb => (encodeChar_of_isDigit (isDigit_digits _ b hb)).2
  rw [renderText, nonceText_eq, String.toList_ofList, hds]

theorem nonceText_inj {m n : UInt64} (h : nonceText m = nonceText n) : m = n := by
  have hdigits := congrArg renderText h
  rw [renderText_nonceText, renderText_nonceText] at hdigits
  have hvalue := congrArg wholeValue (List.append_cancel_right (List.cons.inj hdigits).2)
  rw [wholeValue_digits, wholeValue_digits] at hvalue
  exact UInt64.toNat_inj.1 hvalue

/-! ## Commands -/

theorem wireName_inj {j k : Subscription} (h : j.wireName = k.wireName) : j = k := by
  have hname := congrArg Subscription.ofWireName? h
  rw [Subscription.ofWireName?_wireName, Subscription.ofWireName?_wireName] at hname
  exact Option.some.inj hname

/-- The activity of a request, or that there is none. -/
def activityJson (activity : Option Presence) : Value :=
  match activity with
  | some p => p.toJson
  | none => .null

theorem activityJson_inj {a b : Option Presence} (h : activityJson a = activityJson b) : a = b := by
  cases a with
  | none =>
    cases b with
    | none => rfl
    | some q => cases h
  | some p =>
    cases b with
    | none => cases h
    | some q => rw [Presence.members_inj (Value.object.inj h)]

theorem toJson_inj {c d : Command} (h : c.toJson = d.toJson) : c = d := by
  simp only [toJson, Value.object.injEq, List.cons.injEq, Prod.mk.injEq, Value.text.injEq,
    true_and, and_true] at h
  obtain ⟨htag, hnonce, hargument⟩ := h
  replace hargument := (Prod.mk.inj hargument).2
  replace hnonce := nonceText_inj hnonce
  cases c with
  | subscribe n k =>
    cases d with
    | subscribe n' k' =>
      have hn : n = n' := hnonce
      rw [hn, wireName_inj (Value.text.inj hargument)]
    | unsubscribe n' k' => exact absurd htag (by simp [tag])
    | setActivity n' pid' activity' => exact absurd htag (by simp [tag])
  | unsubscribe n k =>
    cases d with
    | subscribe n' k' => exact absurd htag (by simp [tag])
    | unsubscribe n' k' =>
      have hn : n = n' := hnonce
      rw [hn, wireName_inj (Value.text.inj hargument)]
    | setActivity n' pid' activity' => exact absurd htag (by simp [tag])
  | setActivity n pid activity =>
    cases d with
    | subscribe n' k' => exact absurd htag (by simp [tag])
    | unsubscribe n' k' => exact absurd htag (by simp [tag])
    | setActivity n' pid' activity' =>
      have hn : n = n' := hnonce
      obtain ⟨hpid, hactivity⟩ := List.cons.inj (Value.object.inj hargument)
      have hpid : (pid.toNat : Int) = pid'.toNat := Value.number.inj (Prod.mk.inj hpid).2
      have hactivity : activityJson activity = activityJson activity' :=
        (Prod.mk.inj (List.cons.inj hactivity).1).2
      rw [hn, UInt32.toNat_inj.1 (Int.ofNat.inj hpid), activityJson_inj hactivity]

/-- **The written form of a command is unambiguous.** Commands that are written
with the same octets are the same command, whatever texts they carry and
whichever of their fields are set. -/
theorem encode_eq_iff (c d : Command) : c.encode = d.encode ↔ c = d := by
  constructor
  · intro h
    exact toJson_inj (render_inj h)
  · intro h
    rw [h]

end Command

/-! ## How long a command is -/

namespace Json

theorem escape_ne_nil (c : Char) : escape c ≠ [] := by
  unfold escape
  iterate 8
    split
    · exact List.cons_ne_nil _ _
  exact Utf8.encodeChar_ne_nil c

/-- Every character of a text takes up an octet. -/
theorem length_le_renderText (s : String) : s.toList.length ≤ (renderText s).length := by
  have hchars : ∀ cs : List Char, cs.length ≤ (cs.flatMap escape).length := by
    intro cs
    induction cs with
    | nil => exact Nat.le_refl _
    | cons c cs ih =>
      have hpos := List.length_pos_iff.2 (escape_ne_nil c)
      rw [List.flatMap_cons, List.length_append, List.length_cons]
      omega
  rw [renderText, List.length_cons, List.length_append]
  exact Nat.le_succ_of_le (Nat.le_add_right_of_le (hchars s.toList))

theorem length_escape_le (c : Char) : (escape c).length ≤ 6 * (Utf8.encodeChar c).length := by
  have hpos := List.length_pos_iff.2 (Utf8.encodeChar_ne_nil c)
  unfold escape
  iterate 8
    split
    · simp only [List.length_cons, List.length_nil]
      omega
  omega

/-- No octet of a text takes up more than six. -/
theorem length_renderText_le (s : String) :
    (renderText s).length ≤ 6 * (Utf8.ofString s).length + 2 := by
  have hchars : ∀ cs : List Char, (cs.flatMap escape).length ≤ 6 * (Utf8.encode cs).length := by
    intro cs
    induction cs with
    | nil => exact Nat.le_refl _
    | cons c cs ih =>
      have hchar := length_escape_le c
      rw [List.flatMap_cons, Utf8.encode_cons, List.length_append, List.length_append]
      omega
  have htext := hchars s.toList
  rw [renderText, List.length_cons, List.length_append, List.length_singleton, Utf8.ofString]
  omega

theorem length_le_joined {α : Type} (part : α → Bytes) {items : List α} {a : α} (h : a ∈ items)
    (first : Bool) : (part a).length ≤ (joined part first items).length := by
  induction items generalizing first with
  | nil => cases h
  | cons b items ih =>
    rw [joined, List.length_append, List.length_append]
    rcases List.mem_cons.1 h with rfl | h
    · omega
    · have hrest := ih h false
      omega

/-- An object is longer than each of its members. -/
theorem length_le_of_mem (name : String) {v : Value} {members : List (String × Value)}
    (h : (name, v) ∈ members) : v.render.length ≤ (Value.object members).render.length := by
  have hmember := length_le_joined renderMember h true
  rw [renderMember, List.length_append, List.length_cons] at hmember
  rw [render_object, flatten_memberPieces, List.length_cons, List.length_append]
  simp only at hmember
  omega

end Json

namespace Command

/-- A request is longer than the details of its presence. -/
theorem length_details_le {p : Presence} {details : String} (h : p.details = some details)
    (n : UInt64) (pid : UInt32) :
    details.toList.length ≤ (setActivity n pid (some p)).encode.length := by
  have htext := length_le_renderText details
  have hpresence : (Value.text details).render.length ≤ p.toJson.render.length :=
    length_le_of_mem "details" (by simp [Presence.members, h, optionalText, Json.optional])
  have hargument : p.toJson.render.length ≤
      (setActivity n pid (some p)).argument.2.render.length :=
    length_le_of_mem "activity" (List.mem_cons_of_mem _ List.mem_cons_self)
  have hcommand : (setActivity n pid (some p)).argument.2.render.length ≤
      (setActivity n pid (some p)).encode.length :=
    length_le_of_mem "args" (by simp [argument])
  rw [render_text] at hpresence
  omega

theorem length_encode (c : Command) :
    c.encode.length = (renderText c.tag).length + (digits c.nonce.toNat).length +
      (renderText c.argument.1).length + c.argument.2.render.length + 21 := by
  have hcmd : (renderText "cmd").length = 5 := rfl
  have hnonce : (renderText "nonce").length = 7 := rfl
  rw [encode, toJson, render_object, flatten_memberPieces]
  simp only [joined, renderMember, ↓reduceIte, Bool.false_eq_true, List.nil_append, render_text,
    renderText_nonceText, List.length_append, List.length_cons, List.length_nil, hcmd, hnonce]
  omega

/-- Requests about a kind of event are short, whatever their number. -/
theorem length_encode_le {c : Command} {k : Subscription}
    (h : c.argument = ("evt", .text k.wireName)) : c.encode.length ≤ 100 := by
  have htag : (renderText c.tag).length ≤ 14 := by
    cases c with
    | subscribe n j => exact (by decide : (renderText "SUBSCRIBE").length ≤ 14)
    | unsubscribe n j => exact (by decide : (renderText "UNSUBSCRIBE").length ≤ 14)
    | setActivity n pid activity => exact (by decide : (renderText "SET_ACTIVITY").length ≤ 14)
  have hdigits : (digits c.nonce.toNat).length ≤ 20 :=
    length_digits_le (by decide) (Nat.lt_trans c.nonce.toNat_lt (by decide))
  have hname : (renderText k.wireName).length ≤ 20 := by cases k <;> decide
  have hevt : (renderText "evt").length = 5 := rfl
  rw [length_encode, h, render_text, hevt]
  omega

/-- A request about the activity takes up little more than what it shows. -/
theorem length_encode_setActivity_le (n : UInt64) (pid : UInt32) (activity : Option Presence) :
    (setActivity n pid activity).encode.length ≤ (activityJson activity).render.length + 91 := by
  have hnonce : (digits n.toNat).length ≤ 20 :=
    length_digits_le (by decide) (Nat.lt_trans n.toNat_lt (by decide))
  have hpid : (digits pid.toNat).length ≤ 10 :=
    length_digits_le (by decide) (Nat.lt_trans pid.toNat_lt (by decide))
  have hargument : (Value.object [("pid", .number pid.toNat),
      ("activity", activityJson activity)]).render.length =
        (digits pid.toNat).length + (activityJson activity).render.length + 20 := by
    have hname : (renderText "pid").length = 5 := rfl
    have hactivity : (renderText "activity").length = 10 := rfl
    have hnumber : decimal pid.toNat = digits pid.toNat := rfl
    rw [render_object, flatten_memberPieces]
    simp only [joined, renderMember, ↓reduceIte, Bool.false_eq_true, List.nil_append,
      render_number, List.length_append, List.length_cons, List.length_nil, hname, hactivity,
      hnumber]
    omega
  have htag : (renderText "SET_ACTIVITY").length = 14 := by decide
  have hargs : (renderText "args").length = 6 := rfl
  have hwhole : (setActivity n pid activity).argument = ("args", .object [("pid", .number pid.toNat),
      ("activity", activityJson activity)]) := rfl
  rw [length_encode, hwhole]
  simp only [tag, nonce, htag, hargs, hargument]
  omega

end Command

end PresenceLink
