import PresenceLink.Proofs.Json.Text

/-!
# A written value tells the value

The octets of a written value tell the value and where it ends, whatever
follows it; only behind a number no digit may come next. The first octet tells
what kind of value it is, a text ends at its quote, and commas and brackets
divide the rest.

* `joined_append_inj`: a list of such parts between commas and a bracket;
* `Value.tells`: the value and what follows it, by induction over the
  value;
* `render_inj`: values with the same written form are equal.
-/

namespace PresenceLink.Json

/-- What holds of every value if it holds of the plain ones, of arrays whose
items have it and of objects whose members have it. -/
@[elab_as_elim]
theorem Value.nested {P : Value → Prop} (null : P .null) (bool : ∀ b, P (.bool b))
    (number : ∀ n, P (.number n)) (text : ∀ s, P (.text s))
    (array : ∀ items, (∀ v ∈ items, P v) → P (.array items))
    (object : ∀ members, (∀ m ∈ members, P m.2) → P (.object members)) : ∀ v, P v
  | .null => null
  | .bool b => bool b
  | .number n => number n
  | .text s => text s
  | .array items => array items fun v _ => Value.nested null bool number text array object v
  | .object members =>
    object members fun m _ => Value.nested null bool number text array object m.2
termination_by v => sizeOf v
decreasing_by
  · rename_i hv
    have := List.sizeOf_lt_of_mem hv
    simp only [Value.array.sizeOf_spec]
    omega
  · rename_i hm
    have := List.sizeOf_lt_of_mem hm
    obtain ⟨name, v⟩ := m
    simp only [Value.object.sizeOf_spec, Prod.mk.sizeOf_spec] at this ⊢
    omega

/-! ## The first octet -/

/-- The kinds of value that the first octet tells apart. -/
inductive Kind where
  | null
  | bool (b : Bool)
  | number
  | text
  | array
  | object
  deriving DecidableEq

def Value.kind : Value → Kind
  | .null => .null
  | .bool b => .bool b
  | .number _ => .number
  | .text _ => .text
  | .array _ => .array
  | .object _ => .object

/-- The kind of value that an octet begins. -/
def Kind.ofFirst? (b : UInt8) : Option Kind :=
  if b = 110 then some .null
  else if b = 116 then some (.bool true)
  else if b = 102 then some (.bool false)
  else if b = 34 then some .text
  else if b = 91 then some .array
  else if b = 123 then some .object
  else if b = 45 ∨ isDigit b = true then some .number
  else none

theorem Kind.ofFirst?_number {b : UInt8} (h : b = 45 ∨ isDigit b = true) :
    ofFirst? b = some .number := by
  rcases h with rfl | hb
  · rfl
  · have hne : ∀ c, isDigit c = false → b ≠ c := by
      rintro c hc rfl
      rw [hb] at hc
      cases hc
    rw [ofFirst?, if_neg (hne 110 rfl), if_neg (hne 116 rfl), if_neg (hne 102 rfl),
      if_neg (hne 34 rfl), if_neg (hne 91 rfl), if_neg (hne 123 rfl), if_pos (Or.inr hb)]

theorem render_eq_cons (v : Value) :
    ∃ b tail, v.render = b :: tail ∧ Kind.ofFirst? b = some v.kind := by
  cases v with
  | null => exact ⟨_, _, render_null, rfl⟩
  | bool b => cases b <;> exact ⟨_, _, rfl, rfl⟩
  | number n =>
    obtain ⟨b, tail, hd, hb⟩ := decimal_eq_cons n
    exact ⟨b, tail, by rw [render_number, hd], Kind.ofFirst?_number hb⟩
  | text s => exact ⟨_, _, render_text s, rfl⟩
  | array items => exact ⟨_, _, render_array items, rfl⟩
  | object members => exact ⟨_, _, render_object members, rfl⟩

theorem kind_eq_of_append {v w : Value} {rest rest' : Bytes}
    (h : v.render ++ rest = w.render ++ rest') : v.kind = w.kind := by
  obtain ⟨b, tail, hv, hb⟩ := render_eq_cons v
  obtain ⟨c, tail', hw, hc⟩ := render_eq_cons w
  rw [hv, hw] at h
  rw [(List.cons.inj h).1, hc] at hb
  exact (Option.some.inj hb).symm

/-! ## Parts between commas -/

section Parts

variable {α : Type} {part : α → Bytes}

/-- The parts of a list with commas between them; `first` says that no comma
stands before them. -/
def joined (part : α → Bytes) (first : Bool) : List α → Bytes
  | [] => []
  | a :: rest => (if first then [] else [44]) ++ part a ++ joined part false rest

/-- A part tells what it was written for and where it ends. -/
def Tells (part : α → Bytes) (a : α) : Prop :=
  ∀ (b : α) {rest rest' : Bytes}, Ends rest → Ends rest' →
    part a ++ rest = part b ++ rest' → a = b ∧ rest = rest'

theorem ends_joined {close : UInt8} (hd : isDigit close = false) (items : List α) (rest : Bytes) :
    Ends (joined part false items ++ close :: rest) := by
  intro b hb
  cases items with
  | nil =>
    cases hb
    exact hd
  | cons a items =>
    cases hb
    rfl

/-- A list ends at its closing bracket, with which no part begins. -/
theorem joined_append_inj (close : UInt8) (hd : isDigit close = false) (hc : close ≠ 44)
    (hp : ∀ a, ∃ b tail, part a = b :: tail ∧ b ≠ close) {items : List α}
    (h : ∀ a ∈ items, Tells part a) (first : Bool) (items' : List α) {rest rest' : Bytes}
    (he : joined part first items ++ close :: rest = joined part first items' ++ close :: rest') :
    items = items' ∧ rest = rest' := by
  have hopen : ∀ (first : Bool) (a : α) (items : List α) (rest rest' : Bytes),
      close :: rest ≠ joined part first (a :: items) ++ rest' := by
    intro first a items rest rest' e
    obtain ⟨b, tail, hb, hne⟩ := hp a
    rw [joined, hb] at e
    cases first with
    | true => exact hne (List.cons.inj e).1.symm
    | false => exact hc (List.cons.inj e).1
  induction items generalizing first items' with
  | nil =>
    cases items' with
    | nil => exact ⟨rfl, (List.cons.inj he).2⟩
    | cons a items' => exact absurd he (hopen first a items' rest _)
  | cons a items ih =>
    obtain ⟨ha, hitems⟩ := List.forall_mem_cons.1 h
    cases items' with
    | nil => exact absurd he.symm (hopen first a items rest' _)
    | cons a' items' =>
      simp only [joined, List.append_assoc, List.append_cancel_left_eq] at he
      obtain ⟨rfl, htail⟩ := ha a' (ends_joined hd items rest) (ends_joined hd items' rest') he
      obtain ⟨rfl, hend⟩ := ih hitems false items' htail
      exact ⟨rfl, hend⟩

end Parts

/-! ## Values -/

/-- A member of an object as it is written. -/
def renderMember (m : String × Value) : Bytes := renderText m.1 ++ 58 :: m.2.render

theorem flatten_itemPieces (first : Bool) (items : List Value) :
    (itemPieces first items).flatten = joined Value.render first items := by
  induction items generalizing first with
  | nil => rfl
  | cons v items ih =>
    rw [itemPieces, joined, ← ih]
    cases first <;> simp [Value.render]

theorem flatten_memberPieces (first : Bool) (members : List (String × Value)) :
    (memberPieces first members).flatten = joined renderMember first members := by
  induction members generalizing first with
  | nil => rfl
  | cons m members ih =>
    obtain ⟨name, v⟩ := m
    rw [memberPieces, joined, ← ih]
    cases first <;> simp [renderMember, Value.render, flatten_quoted]

theorem Value.tells_items {items : List Value} (h : ∀ v ∈ items, Tells Value.render v)
    (items' : List Value) {rest rest' : Bytes}
    (he : (array items).render ++ rest = (array items').render ++ rest') :
    items = items' ∧ rest = rest' := by
  rw [render_array, render_array, flatten_itemPieces, flatten_itemPieces, List.cons_append,
    List.cons_append, List.append_assoc, List.append_assoc] at he
  refine joined_append_inj 93 rfl (by decide) ?_ h true items' (List.cons.inj he).2
  intro v
  obtain ⟨b, tail, hv, hb⟩ := render_eq_cons v
  refine ⟨b, tail, hv, ?_⟩
  rintro rfl
  cases hb

theorem Value.tells_members {members : List (String × Value)}
    (h : ∀ m ∈ members, Tells Value.render m.2) (members' : List (String × Value))
    {rest rest' : Bytes}
    (he : (object members).render ++ rest = (object members').render ++ rest') :
    members = members' ∧ rest = rest' := by
  rw [render_object, render_object, flatten_memberPieces, flatten_memberPieces, List.cons_append,
    List.cons_append, List.append_assoc, List.append_assoc] at he
  refine joined_append_inj 125 rfl (by decide) ?_ ?_ true members' (List.cons.inj he).2
  · intro m
    exact ⟨34, _, rfl, by decide⟩
  · rintro ⟨name, v⟩ hm ⟨name', v'⟩ rest rest' hr hr' hpart
    simp only [renderMember, List.append_assoc, List.cons_append] at hpart
    obtain ⟨rfl, hvalue⟩ := renderText_append_inj hpart
    obtain ⟨rfl, hrest⟩ := h _ hm v' hr hr' (List.cons.inj hvalue).2
    exact ⟨rfl, hrest⟩

/-- The written form of a value tells the value and where it ends. -/
theorem Value.tells (v : Value) : Tells Value.render v := by
  intro w rest rest' hr hr' h
  have hkind := kind_eq_of_append h
  induction v using Value.nested generalizing w rest rest' with
  | null =>
    cases w <;> cases hkind
    exact ⟨rfl, List.append_cancel_left h⟩
  | bool b =>
    cases w <;> cases hkind
    exact ⟨rfl, List.append_cancel_left h⟩
  | number n =>
    cases w <;> cases hkind
    rw [render_number, render_number] at h
    obtain ⟨rfl, hrest⟩ := decimal_append_inj hr hr' h
    exact ⟨rfl, hrest⟩
  | text s =>
    cases w <;> cases hkind
    rw [render_text, render_text] at h
    obtain ⟨rfl, hrest⟩ := renderText_append_inj h
    exact ⟨rfl, hrest⟩
  | array items ih =>
    cases w <;> cases hkind
    have hitems : ∀ v ∈ items, Tells Value.render v := fun v hv w _ _ hr hr' h =>
      ih v hv w hr hr' h (kind_eq_of_append h)
    obtain ⟨rfl, hrest⟩ := Value.tells_items hitems _ h
    exact ⟨rfl, hrest⟩
  | object members ih =>
    cases w <;> cases hkind
    have hmembers : ∀ m ∈ members, Tells Value.render m.2 := fun m hm w _ _ hr hr' h =>
      ih m hm w hr hr' h (kind_eq_of_append h)
    obtain ⟨rfl, hrest⟩ := Value.tells_members hmembers _ h
    exact ⟨rfl, hrest⟩

theorem render_inj {v w : Value} (h : v.render = w.render) : v = w := by
  have hnil : Ends [] := fun b hb => by cases hb
  exact (v.tells w hnil hnil (congrArg (· ++ []) h)).1

end PresenceLink.Json
