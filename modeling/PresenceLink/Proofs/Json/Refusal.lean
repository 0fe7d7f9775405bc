import PresenceLink.Proofs.Json.Flaws
import PresenceLink.Proofs.Json.Records

/-!
# Records with a text that cannot be read

A record whose names or texts are not all spelled properly is not read, whatever
follows the text at fault. The texts that matter are the names of the members,
known or not, the texts that known members hold, and those of a record that a
known member holds.

* `MembersBefore`, `ItemsBefore`, `ToText`: the octets of a record up to the
  opening quote of a text in it;
* `fails_reading`: a text that cannot be read is not read inside a record either;
* `ToText.fails`: behind those octets, it makes the whole record fail;
* `readRecord_fails`: so does it in a document.
-/

namespace PresenceLink.Json

variable {known : List (String × Shape)}

/-! ## What stands before a text -/

/-- The members of an object before another one, with a comma behind each. -/
inductive MembersBefore (known : List (String × Shape)) : Bytes → Prop
  | nil {w : Bytes} (h : Blanks w) : MembersBefore known w
  | member {form : MemberForm} {name : String} {c : Content} {before after front : Bytes}
      (hb : Blanks before) (ha : Blanks after) (hn : SpellsText name.toList form.name)
      (hc : Spells c form.value) (hf : ∀ k ∈ known, k.1 = name → Content.Fits k.2 c)
      (h : MembersBefore known front) :
      MembersBefore known (before ++ form.bytes ++ after ++ 44 :: front)

/-- The items of an array before another one, with a comma behind each; `due` is
what is known of the items behind them. -/
inductive ItemsBefore (due : List (String × Shape)) : List (String × Shape) → Bytes → Prop
  | nil {w : Bytes} (h : Blanks w) : ItemsBefore due due w
  | item {k : String × Shape} {known : List (String × Shape)} {item : Bytes} {c : Content}
      {before after front : Bytes} (hb : Blanks before) (ha : Blanks after) (hc : Spells c item)
      (hf : Content.Fits k.2 c) (h : ItemsBefore due known front) :
      ItemsBefore due (k :: known) (before ++ item ++ after ++ 44 :: front)

/-- The octets of a value of some shape up to and with the opening quote of a
text in it that is read: its own, the name of a member, or a text in the value
of a known member. -/
inductive ToText : Shape → Bytes → Prop
  | text : ToText .text [34]
  | name {known : List (String × Shape)} {front : Bytes} (h : MembersBefore known front) :
      ToText (.record known) (123 :: front ++ [34])
  | member {known : List (String × Shape)} {name : String} {shape : Shape}
      {front literal before behind value : Bytes} (h : MembersBefore known front)
      (hk : (name, shape) ∈ known) (hn : SpellsText name.toList literal) (hb : Blanks before)
      (ha : Blanks behind) (hv : ToText shape value) :
      ToText (.record known)
        (123 :: front ++ 34 :: literal ++ 34 :: before ++ 58 :: behind ++ value)
  | item {known due : List (String × Shape)} {k : String × Shape} {front value : Bytes}
      (h : ItemsBefore (k :: due) known front) (hv : ToText k.2 value) :
      ToText (.record known) (91 :: front ++ value)

theorem ItemsBefore.mem {k : String × Shape} {due : List (String × Shape)} {front : Bytes}
    (h : ItemsBefore (k :: due) known front) : k ∈ known := by
  induction h with
  | nil => exact List.mem_cons_self
  | item _ _ _ _ _ ih => exact List.mem_cons_of_mem _ ih

theorem ToText.first {shape : Shape} {front : Bytes} (h : ToText shape front) :
    ∃ b tail, front = b :: tail ∧ IsFirst b := by
  cases h with
  | text => exact ⟨34, [], rfl, rfl, by decide⟩
  | name => exact ⟨123, _, rfl, rfl, by decide⟩
  | member => exact ⟨123, _, rfl, rfl, by decide⟩
  | item => exact ⟨91, _, rfl, rfl, by decide⟩

theorem shapeOf_of_mem (hnames : (known.map Prod.fst).Nodup) {name : String} {shape : Shape}
    (hk : (name, shape) ∈ known) : shapeOf known name = some shape := by
  cases hs : shapeOf known name with
  | none => exact absurd rfl ((of_shapeOf_none hs).2 _ hk)
  | some shape' =>
    have hk' := List.mem_of_getElem? (of_shapeOf hs)
    rw [(Prod.mk.inj (List.inj_on_of_nodup_map hnames hk hk' rfl)).2]

/-! ## Failing readers -/

namespace Reader

/-- A reader cannot read some octets as the rest of a document. -/
def Fails (r : Reader) (bytes : Bytes) : Prop := ∃ fault, (r.run bytes).bind finish = .error fault

theorem Fails.of_run_eq {r r' : Reader} {bytes bytes' : Bytes} (h : r.run bytes = r'.run bytes')
    (hf : Fails r' bytes') : Fails r bytes := by
  rwa [Fails, h]

theorem Fails.of_error {r : Reader} {bytes : Bytes} {fault : Fault}
    (h : r.run bytes = .error fault) : Fails r bytes := ⟨fault, by rw [h]; rfl⟩

/-- A text of either use that cannot be read is where the reader stops. -/
theorem fails_reading (wrap : TextState → Reader)
    (hmore : ∀ {state b state'}, TextState.next state b = .ok (.more state') →
      (wrap state).next b = .ok (wrap state'))
    (herror : ∀ {state b fault}, TextState.next state b = .error fault →
      (wrap state).next b = .error fault)
    (hend : ∀ state, (wrap state).finish = .error .truncated) {bytes : Bytes} {state : TextState}
    {fault : Fault} (h : readText state bytes = .error fault) : Fails (wrap state) bytes := by
  induction bytes generalizing state with
  | nil => exact ⟨.truncated, hend state⟩
  | cons b bytes ih =>
    rw [readText] at h
    split at h
    · rename_i hstep
      exact .of_error (by rw [run, herror hstep])
    · rename_i hstep
      exact .of_run_eq (by rw [run, hmore hstep]) (ih h)
    · cases h

/-! ## Parts that stand before the text -/

/-- The members before the text are passed over, or one of them cannot be read
either. -/
theorem fails_members (hd : Shape.Distinct (.record known)) {front rest : Bytes}
    (h : MembersBefore known front) {f : OpenRecord} (hform : f.form = .object)
    (hknown : f.members = known) (outer : List OpenRecord) {place : Place} (hp : BeforePart place)
    (hrest : ∀ {g : OpenRecord} {place : Place}, g.form = .object → g.members = known →
      BeforePart place → Fails { place, levels := g :: outer } rest) :
    Fails { place, levels := f :: outer } (front ++ rest) := by
  induction h generalizing f place with
  | nil hw => exact .of_run_eq (run_blanks (next_before hp _) hw rest) (hrest hform hknown hp)
  | @member form name c before after front hb ha hn hc hf h ih =>
    have htold : Told f.members form name (c.readAs known name) := by
      refine ⟨hn, fun shape hshape => ?_, fun _ => hc.isValue⟩
      rw [hknown] at hshape
      have hk := List.mem_of_getElem? (of_shapeOf hshape)
      rw [Content.readAs, hshape]
      cases hd with
      | record _ hd => exact (hc.reads (hd _ hk) (hf _ hk rfl)).1
    have hnext := run_next_member hform htold outer hp hb
      (stops_append ha (Or.inr (Or.inl rfl)) (front ++ rest))
    rw [List.append_assoc, List.cons_append, List.append_assoc _ after]
    -- A member that cannot be read stops the reader even before the text.
    cases hv : f.member name (c.readAs known name) with
    | none =>
      rw [hv] at hnext
      exact .of_error hnext
    | some g =>
      obtain ⟨hgform, hgknown⟩ := OpenRecord.member_frame hv
      rw [hform] at hgform
      rw [hv] at hnext
      exact .of_run_eq (hnext.trans (run_comma (.inl hgform) outer ha _))
        (ih hgform (hgknown.trans hknown) (.inr rfl))

/-- So are the items before it. -/
theorem fails_items {k : String × Shape} {due : List (String × Shape)} {front rest : Bytes}
    (h : ItemsBefore (k :: due) known front) (hd : ∀ k ∈ known, Shape.Distinct k.2)
    {f : OpenRecord} (hform : f.form = .array) (hknown : f.members.drop f.index = known)
    (outer : List OpenRecord) {place : Place} (hp : BeforePart place)
    (hrest : ∀ {g : OpenRecord} {place : Place}, g.form = .array → g.shape? = some k.2 →
      BeforePart place → Fails { place, levels := g :: outer } rest) :
    Fails { place, levels := f :: outer } (front ++ rest) := by
  have hshape : ∀ {f : OpenRecord} {k known}, f.members.drop f.index = k :: known →
      f.shape? = some k.2 := by
    intro f k known hdrop
    have hget := congrArg (fun l => l[0]?) hdrop
    simp only [List.getElem?_drop, Nat.add_zero, List.getElem?_cons_zero] at hget
    rw [OpenRecord.shape?, hget, Option.map_some]
  induction h generalizing f place with
  | nil hw =>
    exact .of_run_eq (run_blanks (next_before hp _) hw rest) (hrest hform (hshape hknown) hp)
  | @item k' known item c before after front hb ha hc hf h ih =>
    obtain ⟨hd', hds⟩ := List.forall_mem_cons.1 hd
    have hnext := run_next_item hform (hshape hknown) hc.isValue.first (hc.reads hd' hf).1 outer hp
      hb (stops_append ha (Or.inr (Or.inl rfl)) (front ++ rest))
    rw [List.append_assoc, List.cons_append, List.append_assoc _ after]
    cases hv : c.read? k'.2 with
    | none =>
      rw [hv] at hnext
      exact .of_error hnext
    | some v =>
      have hdrop : (f.put v).members.drop (f.put v).index = known := by
        change f.members.drop (f.index + 1) = known
        rw [← List.drop_drop, hknown, List.drop_one, List.tail_cons]
      have hfull : (f.put v).full = false := by
        have hmore : known ≠ [] := by cases h <;> simp
        rw [← hdrop, Ne, List.drop_eq_nil_iff] at hmore
        exact decide_eq_false hmore
      rw [hv] at hnext
      exact .of_run_eq (hnext.trans (run_comma (.inr hfull) outer ha _))
        (ih hds (f := f.put v) hform hdrop (.inr rfl))

/-- An opening bracket leads into a record, which is the value of a member or a
document. -/
theorem fails_opening (form : Bracket) {bytes : Bytes}
    (h : ∀ outer, Fails { place := .opened, levels := OpenRecord.opened form known :: outer } bytes) :
    (∀ f outer, Fails { place := .value (.record known), levels := f :: outer }
      (form.opening :: bytes)) ∧
    ∀ known', Shape.record known = .record known' → Fails (start known') (form.opening :: bytes) := by
  constructor
  · intro f outer
    exact .of_run_eq (by rw [run]; cases form <;> rfl) (h (f :: outer))
  · intro known' he
    cases he
    exact .of_run_eq (by rw [run]; cases form <;> rfl) (h [])

/-- A name that cannot be read. -/
theorem fails_name {f : OpenRecord} (hform : f.form = .object) (outer : List OpenRecord)
    {place : Place} (hp : BeforePart place) {rest : Bytes} {fault : Fault}
    (hrest : readText .start rest = .error fault) :
    Fails { place, levels := f :: outer } (34 :: rest) := by
  have hrun : run { place, levels := f :: outer } (34 :: rest) =
      run { place := .name .start, levels := f :: outer } rest := by
    rw [run, next_quote hform outer hp]
  refine .of_run_eq hrun ?_
  exact fails_reading (fun state => { place := .name state, levels := f :: outer })
    (fun h => by simp only [next, h]) (fun h => by simp only [next, h]) (fun _ => rfl) hrest

/-- A known member of which the value cannot be read. -/
theorem fails_member {f : OpenRecord} (hform : f.form = .object) (outer : List OpenRecord)
    {place : Place} (hp : BeforePart place) {name : String} {shape : Shape}
    (hshape : shapeOf f.members name = some shape) {literal before behind rest : Bytes}
    (hn : SpellsText name.toList literal) (hb : Blanks before) (ha : Blanks behind)
    (hrest : ∀ g, Fails { place := .value shape, levels := g :: outer } rest) :
    Fails { place, levels := f :: outer }
      (34 :: (literal ++ 34 :: (before ++ 58 :: (behind ++ rest)))) := by
  have hname : run { place, levels := f :: outer }
      (34 :: (literal ++ 34 :: (before ++ 58 :: (behind ++ rest)))) =
      (nameClosed name (f :: outer)).bind (·.run (before ++ 58 :: (behind ++ rest))) := by
    rw [run, next_quote hform outer hp]
    exact run_name hn _ _
  rw [nameClosed] at hname
  cases hs : f.select name with
  | none =>
    rw [hs] at hname
    exact .of_error hname
  | some g =>
    obtain ⟨-, -, -, hg⟩ := OpenRecord.select_frame hs
    rw [hs] at hname
    exact .of_run_eq (hname.trans (run_known (hg.trans hshape) hb ha outer rest)) (hrest g)

/-- An item that cannot be read. -/
theorem fails_item {f : OpenRecord} {shape : Shape} (hform : f.form = .array)
    (hshape : f.shape? = some shape) (outer : List OpenRecord) {place : Place}
    (hp : BeforePart place) {b : UInt8} {tail : Bytes} (hb : IsFirst b)
    (hrest : Fails { place := .value shape, levels := f :: outer } (b :: tail)) :
    Fails { place, levels := f :: outer } (b :: tail) := by
  exact .of_run_eq (by rw [run, run, next_item hform hshape outer hp hb]) hrest

end Reader

open Reader

/-- **A text that cannot be read makes the value fail in which it stands**,
however deep. -/
theorem ToText.fails {shape : Shape} {front : Bytes} (h : ToText shape front)
    (hd : shape.Distinct) {rest : Bytes} {fault : Fault}
    (hrest : readText .start rest = .error fault) :
    (∀ f outer, Fails { place := .value shape, levels := f :: outer } (front ++ rest)) ∧
      ∀ known, shape = .record known → Fails (start known) (front ++ rest) := by
  induction h with
  | text =>
    refine ⟨fun f outer => ?_, nofun⟩
    have hrun : run { place := .value .text, levels := f :: outer } ([34] ++ rest) =
        run { place := .text .start, levels := f :: outer } rest := rfl
    refine .of_run_eq hrun ?_
    exact fails_reading (fun state => { place := .text state, levels := f :: outer })
      (fun h => by simp only [next, h]) (fun h => by simp only [next, h]) (fun _ => rfl) hrest
  | @name known front h =>
    rw [List.cons_append, List.cons_append, List.append_assoc]
    refine fails_opening .object fun outer => fails_members hd h rfl rfl outer (.inl rfl) ?_
    intro g place hform _ hp
    exact fails_name hform outer hp hrest
  | @member known name shape front literal before behind value h hk hn hb ha hv ih =>
    cases hd with
    | record hnames hd =>
      have hbytes : 123 :: front ++ 34 :: literal ++ 34 :: before ++ 58 :: behind ++ value ++ rest =
          123 :: (front ++ 34 :: (literal ++ 34 :: (before ++ 58 :: (behind ++ (value ++ rest))))) := by
        simp
      rw [hbytes]
      refine fails_opening .object fun outer =>
        fails_members (.record hnames hd) h rfl rfl outer (.inl rfl) ?_
      intro g place hform hknown hp
      exact fails_member hform outer hp (by rw [hknown, shapeOf_of_mem hnames hk]) hn hb ha
        fun g => (ih (hd _ hk)).1 g outer
  | @item known due k front value h hv ih =>
    cases hd with
    | record hnames hd =>
      rw [List.cons_append, List.cons_append, List.append_assoc]
      refine fails_opening .array fun outer => fails_items h hd rfl rfl outer (.inl rfl) ?_
      intro g place hform hshape hp
      obtain ⟨b, tail, rfl, hb⟩ := hv.first
      exact fails_item hform hshape outer hp hb ((ih (hd k h.mem)).1 g outer)

/-- A document with a text in it that cannot be read. -/
theorem readRecord_fails (hd : Shape.Distinct (.record known)) {before front rest : Bytes}
    (hb : Blanks before) (h : ToText (.record known) front) {fault : Fault}
    (hrest : readText .start rest = .error fault) :
    ∃ fault, readRecord known (before ++ front ++ rest) = .error fault := by
  have hblank : ∀ b, isBlank b = true → (start known).next b = .ok (start known) := by
    intro b hb
    simp only [start, next, hb, if_true]
  have hrun : (start known).run (before ++ front ++ rest) = (start known).run (front ++ rest) := by
    rw [List.append_assoc, run_blanks hblank hb]
  exact Fails.of_run_eq hrun ((h.fails hd hrest).2 known rfl)

end PresenceLink.Json
