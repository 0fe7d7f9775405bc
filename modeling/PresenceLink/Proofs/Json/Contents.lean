import PresenceLink.Proofs.Json.Spelling

/-!
# What a record says

A record is read for the values of its known members. How it is spelled, in
which order its members come, what other members it has and whether it is an
object or an array makes no difference; a known member that comes twice makes
it unreadable.

* `Content`, `Spells`: what a document says, and its spellings;
* `Content.Fits`, `Content.Repeats`, `Content.field`: when it can be read as a
  value of some shape, and as what;
* `yields_text`, `yields_int32`: any spelling of a text or an integer is read as
  what it says;
* `run_members`, `run_items`: the parts of a record are read one by one.
-/

namespace PresenceLink.Json

/-! ## Contents -/

/-- What a value says to a reader. All but the kinds of value that a shape can
ask for is the same to it. -/
inductive Content where
  | null
  | text (s : String)
  | int32 (n : Int32)
  | object (members : List (String × Content))
  | array (items : List Content)
  | other

/-- The octets that say something. The members of an object come with the
octets of their names and values. -/
inductive Spells : Content → Bytes → Prop
  | null : Spells .null [110, 117, 108, 108]
  | text {s : String} {literal : Bytes} (h : SpellsText s.toList literal) :
      Spells (.text s) (34 :: literal ++ [34])
  | int32 (n : Int32) : Spells (.int32 n) (decimal n.toInt)
  | object {members : List (MemberForm × String × Content)} {bytes : Bytes}
      (hn : ∀ m ∈ members, SpellsText m.2.1.toList m.1.name)
      (h : ∀ m ∈ members, Spells m.2.2 m.1.value)
      (he : Enclosed 123 125 (members.map fun m => m.1.bytes) bytes) :
      Spells (.object (members.map fun m => m.2)) bytes
  | array {items : List (Bytes × Content)} {bytes : Bytes} (h : ∀ i ∈ items, Spells i.2 i.1)
      (he : Enclosed 91 93 (items.map fun i => i.1) bytes) :
      Spells (.array (items.map fun i => i.2)) bytes
  | other {bytes : Bytes} (h : IsValue bytes) : Spells .other bytes

/-- Whatever octets say, they are well formed. -/
theorem Spells.isValue {c : Content} {bytes : Bytes} (h : Spells c bytes) : IsValue bytes := by
  induction h with
  | null => exact .null
  | text h => exact .text h.isText
  | int32 n => exact .number (isNumber_decimal n.toInt)
  | @object members bytes hn h he ih =>
    refine @IsValue.object (members.map fun m => m.1) bytes ?_ ?_ ?_
    · intro form hform
      obtain ⟨m, hm, rfl⟩ := List.mem_map.1 hform
      exact (hn m hm).isText
    · intro form hform
      obtain ⟨m, hm, rfl⟩ := List.mem_map.1 hform
      exact ih m hm
    · rwa [List.map_map]
  | @array items bytes h he ih =>
    refine .array ?_ he
    intro item hitem
    obtain ⟨i, hi, rfl⟩ := List.mem_map.1 hitem
    exact ih i hi
  | other h => exact h

namespace Content

/-- The known members of a record have values of their types, or `null`. -/
inductive Fits : Shape → Content → Prop
  | null (shape : Shape) : Fits shape .null
  | text (s : String) : Fits .text (.text s)
  | int32 (n : Int32) : Fits .int32 (.int32 n)
  | object {known : List (String × Shape)} {members : List (String × Content)}
      (h : ∀ k ∈ known, ∀ c, (k.1, c) ∈ members → Fits k.2 c) :
      Fits (.record known) (.object members)
  | array {known : List (String × Shape)} {items : List Content}
      (hlength : items.length ≤ known.length)
      (h : ∀ (i : Nat) k c, known[i]? = some k → items[i]? = some c → Fits k.2 c) :
      Fits (.record known) (.array items)

/-- A known member comes twice in a record, or in the value of a known
member. -/
inductive Repeats : Shape → Content → Prop
  | twice {known : List (String × Shape)} {members : List (String × Content)} {k : String × Shape}
      (hk : k ∈ known) (h : 2 ≤ members.countP fun m => m.1 == k.1) :
      Repeats (.record known) (.object members)
  | member {known : List (String × Shape)} {members : List (String × Content)} {k : String × Shape}
      {c : Content} (hk : k ∈ known) (hc : (k.1, c) ∈ members) (h : Repeats k.2 c) :
      Repeats (.record known) (.object members)
  | item {known : List (String × Shape)} {items : List Content} {i : Nat} {k : String × Shape}
      {c : Content} (hk : known[i]? = some k) (hc : items[i]? = some c) (h : Repeats k.2 c) :
      Repeats (.record known) (.array items)

/-- What a content is read as. -/
def field : Shape → Content → Field
  | .record known, .object members =>
    .record (known.map fun k => (members.lookup k.1).map fun c => field k.2 c)
  | .record known, .array items =>
    .record ((known.map fun k c => field k.2 c).mapIdx fun i read => items[i]?.map read)
  | _, .text s => .text s
  | _, .int32 n => .int32 n
  | _, _ => .null
termination_by shape => sizeOf shape
decreasing_by
  all_goals
    rename_i hk
    have hlt := List.sizeOf_lt_of_mem hk
    obtain ⟨name, shape⟩ := k
    simp only [Shape.record.sizeOf_spec, Prod.mk.sizeOf_spec] at hlt ⊢
    omega

open Classical in
/-- What comes of reading a content, if it can be read. -/
noncomputable def read? (shape : Shape) (c : Content) : Option Field :=
  if Repeats shape c then none else some (field shape c)

end Content

/-- No record of a shape knows one name twice. -/
inductive Shape.Distinct : Shape → Prop
  | text : Distinct .text
  | int32 : Distinct .int32
  | record {known : List (String × Shape)} (hn : (known.map Prod.fst).Nodup)
      (h : ∀ k ∈ known, Distinct k.2) : Distinct (.record known)

namespace Content

theorem field_null (shape : Shape) : field shape .null = .null := by
  cases shape <;> simp [field]

theorem field_text (shape : Shape) (s : String) : field shape (.text s) = .text s := by
  cases shape <;> simp [field]

theorem field_int32 (shape : Shape) (n : Int32) : field shape (.int32 n) = .int32 n := by
  cases shape <;> simp [field]

theorem field_object (known : List (String × Shape)) (members : List (String × Content)) :
    field (.record known) (.object members) =
      .record (known.map fun k => (members.lookup k.1).map (field k.2)) := by
  rw [field]

theorem field_array (known : List (String × Shape)) (items : List Content) :
    field (.record known) (.array items) =
      .record (known.mapIdx fun i k => items[i]?.map (field k.2)) := by
  rw [field]
  congr 1
  refine List.ext_getElem? fun i => ?_
  simp only [List.getElem?_mapIdx, List.getElem?_map, Option.map_map]
  rfl

theorem read?_of_not_repeats {shape : Shape} {c : Content} (h : ¬ Repeats shape c) :
    c.read? shape = some (field shape c) := if_neg h

theorem read?_of_repeats {shape : Shape} {c : Content} (h : Repeats shape c) :
    c.read? shape = none := if_pos h

end Content

/-! ## Reading one member -/

/-- The shape of the member with a given name. -/
def shapeOf (known : List (String × Shape)) (name : String) : Option Shape :=
  (known[known.findIdx fun k => k.1 == name]?).map (·.2)

namespace OpenRecord

/-- Take the value of a member with a given name, if it can be read. -/
def member (f : OpenRecord) (name : String) (v : Option Field) : Option OpenRecord :=
  (f.select name).bind fun f => if f.shape?.isSome then v.map f.put else some f

theorem select_frame {f g : OpenRecord} {name : String} (h : f.select name = some g) :
    g.form = f.form ∧ g.members = f.members ∧ g.entries = f.entries ∧
      g.shape? = shapeOf f.members name := by
  unfold select at h
  dsimp only at h
  split at h
  · cases h
  · cases h
    exact ⟨rfl, rfl, rfl, rfl⟩

theorem member_frame {f g : OpenRecord} {name : String} {v : Option Field}
    (h : f.member name v = some g) : g.form = f.form ∧ g.members = f.members := by
  obtain ⟨u, hu, hg⟩ := Option.bind_eq_some_iff.1 h
  obtain ⟨hform, hmembers, -, -⟩ := select_frame hu
  split at hg
  · obtain ⟨v, -, rfl⟩ := Option.map_eq_some_iff.1 hg
    exact ⟨hform, hmembers⟩
  · cases hg
    exact ⟨hform, hmembers⟩

end OpenRecord

namespace Reader

/-- Go on with a reader, unless something cannot be read. -/
def goOn : Option Reader → Bytes → Except Fault Reader
  | some r, rest => r.run rest
  | none, _ => .error .mismatch

/-- Some octets are the value of a member, or tell that it cannot be read. -/
def Yields (shape : Shape) (bytes : Bytes) (v : Option Field) : Prop :=
  ∀ (f : OpenRecord) (outer : List OpenRecord) {rest : Bytes}, Stops rest →
    run { place := .value shape, levels := f :: outer } (bytes ++ rest) =
      goOn (v.map fun v => deliver v (f :: outer)) rest

/-- A text of either use is read to its closing quote. -/
theorem run_text (wrap : TextState → Reader) (closed : String → Except Fault Reader)
    (hmore : ∀ {state b state'}, TextState.next state b = .ok (.more state') →
      (wrap state).next b = .ok (wrap state'))
    (hclosed : ∀ {state b text}, TextState.next state b = .ok (.closed text) →
      (wrap state).next b = closed text)
    {bytes : Bytes} {state : TextState} {text : String} {rest : Bytes}
    (h : readText state bytes = .ok (text, rest)) :
    (wrap state).run bytes = (closed text).bind (·.run rest) := by
  induction bytes generalizing state with
  | nil => cases h
  | cons b bytes ih =>
    rw [readText] at h
    rw [run_cons]
    split at h
    · cases h
    · rename_i state' hstep
      rw [hmore hstep]
      exact ih h
    · rename_i hstep
      cases h
      rw [hclosed hstep]

theorem yields_null (shape : Shape) : Yields shape [110, 117, 108, 108] (some .null) := by
  intro f outer rest _
  cases shape <;> rfl

theorem yields_text {s : String} {literal : Bytes} (h : SpellsText s.toList literal) :
    Yields .text (34 :: literal ++ [34]) (some (.text s)) := by
  intro f outer rest _
  have hread := run_text (fun state => { place := .text state, levels := f :: outer })
    (fun text => .ok (deliver (.text text) (f :: outer)))
    (fun h => by simp only [next, h]) (fun h => by simp only [next, h]) (h.read rest)
  rw [List.append_assoc]
  exact hread

/-- The octets of a number are kept until it ends. -/
theorem run_digits {levels : List OpenRecord} {form form' : NumberForm} {bytes : Bytes}
    (h : form.follow bytes = some form') (seen rest : Bytes) :
    run { place := .number form seen, levels } (bytes ++ rest) =
      run { place := .number form' (bytes.reverse ++ seen), levels } rest := by
  induction bytes generalizing form seen with
  | nil =>
    cases h
    rfl
  | cons b bytes ih =>
    rw [NumberForm.follow] at h
    split at h
    · rename_i g hg
      have hstep : next { place := .number form seen, levels } b =
          .ok { place := .number g (b :: seen), levels } := by
        simp only [next, hg]
      rw [List.cons_append, run, hstep]
      dsimp only
      rw [ih h, List.reverse_cons, List.append_assoc, List.singleton_append]
    · cases h

theorem yields_int32 (n : Int32) : Yields .int32 (decimal n.toInt) (some (.int32 n)) := by
  rintro f outer _ ⟨b, tail, rfl, hb⟩
  obtain ⟨c, more, form, form', hd, hfirst, hfollow, hcomplete⟩ :=
    NumberForm.follow_number (isNumber_decimal n.toInt)
  have hne : c ≠ 110 := by
    rintro rfl
    cases hfirst
  have hblank : isBlank c = false := by
    rw [← Bool.not_eq_true, isBlank_iff]
    rintro (rfl | rfl | rfl | rfl) <;> cases hfirst
  have hopen : next { place := .value .int32, levels := f :: outer } c =
      .ok { place := .number form [c], levels := f :: outer } := by
    simp only [next, hblank, Bool.false_eq_true, if_false, valueNext, if_neg hne, hfirst]
  have hvalue : int32Of (more.reverse ++ [c]).reverse = .ok n := by
    rw [List.reverse_append, List.reverse_reverse, List.reverse_singleton, List.singleton_append,
      ← hd, int32Of_decimal]
  rw [hd, List.cons_append, run, hopen]
  dsimp only
  rw [run_digits hfollow, run]
  simp only [next, NumberForm.next_stop hcomplete hb, hvalue]
  rfl

/-! ## The members of an object -/

/-- A member with its name and what comes of its value: as a value of the shape
that is asked for, if it is known, or else as any value. -/
structure Told (known : List (String × Shape)) (form : MemberForm) (name : String)
    (v : Option Field) : Prop where
  spelled : SpellsText name.toList form.name
  yields : ∀ shape, shapeOf known name = some shape → Yields shape form.value v
  skips : shapeOf known name = none → IsValue form.value

theorem next_colon (levels : List OpenRecord) (b : UInt8) (hb : isBlank b = true) :
    next { place := .colon, levels } b = .ok { place := .colon, levels } := by
  simp only [next, colonNext, hb, if_true]

/-- Behind the name of a known member, its value is due. -/
theorem run_known {g : OpenRecord} {shape : Shape} (hshape : g.shape? = some shape)
    {before behind : Bytes} (hb : Blanks before) (ha : Blanks behind) (outer : List OpenRecord)
    (rest : Bytes) :
    run { place := .colon, levels := g :: outer } (before ++ 58 :: (behind ++ rest)) =
      run { place := .value shape, levels := g :: outer } rest := by
  have hvalue : ∀ b, isBlank b = true →
      next { place := .value shape, levels := g :: outer } b =
        .ok { place := .value shape, levels := g :: outer } := by
    intro b hb
    simp only [next, hb, if_true]
  have hstep : next { place := .colon, levels := g :: outer } 58 =
      .ok { place := .value shape, levels := g :: outer } := by
    change colonNext (g :: outer) 58 = _
    simp [colonNext, hshape, isBlank]
  rw [run_blanks (next_colon _) hb, run, hstep]
  dsimp only
  rw [run_blanks hvalue ha]

/-- Behind its name, the value of a member is read as one of the shape that is
asked for, or is skipped if none is. -/
theorem run_colon {g : OpenRecord} {m : MemberForm} {v : Option Field}
    (hy : ∀ shape, g.shape? = some shape → Yields shape m.value v)
    (hw : g.shape? = none → IsValue m.value) (outer : List OpenRecord) {rest : Bytes}
    (hr : Stops rest) :
    run { place := .colon, levels := g :: outer }
        (m.before ++ 58 :: (m.behind ++ (m.value ++ rest))) =
      goOn ((if g.shape?.isSome then v.map g.put else some g).map fun f =>
        { place := .after, levels := f :: outer }) rest := by
  cases hshape : g.shape? with
  | some shape =>
    rw [run_known hshape m.before_blank m.behind_blank, hy shape hshape g outer hr]
    cases v <;> rfl
  | none =>
    have hskip : ∀ b, isBlank b = true →
        next (skipping .value [] (g :: outer)) b = .ok (skipping .value [] (g :: outer)) := by
      intro b hb
      simp only [skipping, next, Skip.next, hb, if_true]
    have hstep : next { place := .colon, levels := g :: outer } 58 =
        .ok (skipping .value [] (g :: outer)) := by
      change colonNext (g :: outer) 58 = _
      simp [colonNext, hshape, isBlank]
      rfl
    rw [run_blanks (next_colon _) m.before_blank, run, hstep]
    dsimp only
    rw [run_blanks hskip m.behind_blank, run_skip (hw hshape) [] _ hr]
    rfl

/-- A name in any spelling is read to its closing quote. -/
theorem run_name {name : String} {literal : Bytes} (h : SpellsText name.toList literal)
    (levels : List OpenRecord) (rest : Bytes) :
    run { place := .name .start, levels } (literal ++ 34 :: rest) =
      (nameClosed name levels).bind (·.run rest) :=
  run_text (fun state => { place := .name state, levels }) (fun name => nameClosed name levels)
    (fun h => by simp only [next, h]) (fun h => by simp only [next, h]) (h.read rest)

theorem run_member {f : OpenRecord} {m : MemberForm} {name : String} {v : Option Field}
    (h : Told f.members m name v) (outer : List OpenRecord) {rest : Bytes} (hr : Stops rest) :
    run { place := .name .start, levels := f :: outer }
        (m.name ++ 34 :: m.before ++ 58 :: m.behind ++ m.value ++ rest) =
      goOn ((f.member name v).map fun f => { place := .after, levels := f :: outer }) rest := by
  have hbytes : m.name ++ 34 :: m.before ++ 58 :: m.behind ++ m.value ++ rest =
      m.name ++ 34 :: (m.before ++ 58 :: (m.behind ++ (m.value ++ rest))) := by simp
  rw [hbytes, run_name h.spelled, nameClosed, OpenRecord.member]
  cases hs : f.select name with
  | none => rfl
  | some g =>
    obtain ⟨-, -, -, hshape⟩ := OpenRecord.select_frame hs
    exact run_colon (fun shape hg => h.yields shape (hshape.symm.trans hg))
      (fun hg => h.skips (hshape.symm.trans hg)) outer hr

/-- The places at which a part of a record is due. -/
def BeforePart (place : Place) : Prop := place = .opened ∨ place = .comma

theorem next_before {place : Place} (hp : BeforePart place) (levels : List OpenRecord) (b : UInt8)
    (hb : isBlank b = true) : next { place, levels } b = .ok { place, levels } := by
  rcases hp with rfl | rfl
  · simp only [next, openedNext, hb, if_true]
  · simp only [next, commaNext, hb, if_true]

theorem next_after (levels : List OpenRecord) (b : UInt8) (hb : isBlank b = true) :
    next { place := .after, levels } b = .ok { place := .after, levels } := by
  simp only [next, afterNext, hb, if_true]

/-- Where a part of an object is due, the name of a member may begin. -/
theorem next_quote {f : OpenRecord} (hform : f.form = .object) (outer : List OpenRecord)
    {place : Place} (hp : BeforePart place) :
    next { place, levels := f :: outer } 34 =
      .ok { place := .name .start, levels := f :: outer } := by
  rcases hp with rfl | rfl <;> simp [next, openedNext, commaNext, nameNext, hform, isBlank]

/-- Where a part of an array is due, an item begins as the value of a member
does. -/
theorem next_item {f : OpenRecord} {shape : Shape} (hform : f.form = .array)
    (hshape : f.shape? = some shape) (outer : List OpenRecord) {place : Place}
    (hp : BeforePart place) {b : UInt8} (hb : IsFirst b) :
    next { place, levels := f :: outer } b =
      next { place := .value shape, levels := f :: outer } b := by
  obtain ⟨hblank, hclosing⟩ := hb
  rcases hp with rfl | rfl <;>
    simp [next, openedNext, commaNext, hblank, hform, hclosing, elementNext, hshape]

/-- Behind the comma another part is due; the last item of an array has none. -/
theorem run_comma {f : OpenRecord} (hf : f.form = .object ∨ f.full = false)
    (outer : List OpenRecord) {after : Bytes} (ha : Blanks after) (rest : Bytes) :
    run { place := .after, levels := f :: outer } (after ++ 44 :: rest) =
      run { place := .comma, levels := f :: outer } rest := by
  have hcomma : next { place := .after, levels := f :: outer } 44 =
      .ok { place := .comma, levels := f :: outer } := by
    cases hform : f.form with
    | object => simp [next, afterNext, hform, isBlank]
    | array => simp [next, afterNext, hform, isBlank, hf.resolve_left (by simp [hform])]
  rw [run_blanks (next_after _) ha, run, hcomma]

/-- A member with all that stands before it is taken, unless it cannot be read. -/
theorem run_next_member {f : OpenRecord} {m : MemberForm} {name : String} {v : Option Field}
    (hform : f.form = .object) (h : Told f.members m name v) (outer : List OpenRecord)
    {place : Place} (hp : BeforePart place) ⦃before rest : Bytes⦄ (hb : Blanks before)
    (hr : Stops rest) :
    run { place, levels := f :: outer } (before ++ m.bytes ++ rest) =
      goOn ((f.member name v).map fun f => { place := .after, levels := f :: outer }) rest := by
  have hbytes : before ++ m.bytes ++ rest =
      before ++ 34 :: (m.name ++ 34 :: m.before ++ 58 :: m.behind ++ m.value ++ rest) := by
    simp [MemberForm.bytes]
  rw [hbytes, run_blanks (next_before hp _) hb, run, next_quote hform outer hp]
  exact run_member h outer hr

/-- The members of an object are taken one by one, up to the first that cannot
be read. -/
theorem run_members (members : List (MemberForm × String × Option Field)) {bytes : Bytes}
    (hl : Listed (members.map fun m => m.1.bytes) bytes) {known : List (String × Shape)}
    (h : ∀ m ∈ members, Told known m.1 m.2.1 m.2.2) {f : OpenRecord} (hform : f.form = .object)
    (hknown : f.members = known) (outer : List OpenRecord) (rest : Bytes) {place : Place}
    (hp : BeforePart place) :
    run { place, levels := f :: outer } (bytes ++ 125 :: rest) =
      goOn ((members.foldlM (fun (f : OpenRecord) m => f.member m.2.1 m.2.2) f).map fun f =>
        close (f :: outer)) rest := by
  induction members generalizing f bytes place with
  | nil => cases hl
  | cons m members ih =>
    obtain ⟨hm, hmembers⟩ := List.forall_mem_cons.1 h
    have hnext := run_next_member hform (hknown ▸ hm) outer hp
    rw [List.foldlM_cons]
    generalize hparts : (m :: members).map (fun m => m.1.bytes) = parts at hl
    cases hl with
    | @last before part after hb ha =>
      rw [List.map_cons, List.cons.injEq, List.map_eq_nil_iff] at hparts
      obtain ⟨rfl, rfl⟩ := hparts
      rw [List.append_assoc _ after,
        hnext hb (stops_append ha (Or.inr (Or.inr (Or.inr rfl))) rest)]
      cases hv : f.member m.2.1 m.2.2 with
      | none => rfl
      | some g =>
        obtain ⟨hgform, -⟩ := OpenRecord.member_frame hv
        rw [hform] at hgform
        have hclose : next { place := .after, levels := g :: outer } 125 =
            .ok (close (g :: outer)) := by
          simp [next, afterNext, hgform, isBlank]
        change run { place := .after, levels := g :: outer } _ = _
        rw [run_blanks (next_after _) ha, run, hclose]
        rfl
    | @comma before part after bytes parts hb ha hl =>
      rw [List.map_cons, List.cons.injEq] at hparts
      obtain ⟨rfl, rfl⟩ := hparts
      rw [List.append_assoc, List.cons_append, List.append_assoc _ after,
        hnext hb (stops_append ha (Or.inr (Or.inl rfl)) _)]
      cases hv : f.member m.2.1 m.2.2 with
      | none => rfl
      | some g =>
        obtain ⟨hgform, hgknown⟩ := OpenRecord.member_frame hv
        rw [hform] at hgform
        change run { place := .after, levels := g :: outer } _ = _
        rw [run_comma (.inl hgform) outer ha]
        exact ih hl hmembers hgform (hgknown.trans hknown) (Or.inr rfl)

/-! ## The items of an array -/

/-- An item with the blanks before it is taken, unless it cannot be read. -/
theorem run_next_item {f : OpenRecord} {shape : Shape} {item : Bytes} {v : Option Field}
    (hform : f.form = .array) (hshape : f.shape? = some shape)
    (hfirst : ∃ b tail, item = b :: tail ∧ IsFirst b) (h : Yields shape item v)
    (outer : List OpenRecord) {place : Place} (hp : BeforePart place) ⦃before rest : Bytes⦄
    (hb : Blanks before) (hr : Stops rest) :
    run { place, levels := f :: outer } (before ++ item ++ rest) =
      goOn (v.map fun v => { place := .after, levels := f.put v :: outer }) rest := by
  obtain ⟨c, tail, rfl, hc⟩ := hfirst
  have hvalue := h f outer hr
  rw [List.append_assoc, run_blanks (next_before hp _) hb]
  rw [List.cons_append, run] at hvalue ⊢
  rw [next_item hform hshape outer hp hc]
  exact hvalue

/-- The items of an array are taken in order, up to the first that cannot be
read. -/
theorem run_items {items : List (Bytes × Option Field)} {bytes : Bytes}
    (hl : Listed (items.map fun i => i.1) bytes) {known : List (String × Shape)} {f : OpenRecord}
    (hfirst : ∀ i ∈ items, ∃ b tail, i.1 = b :: tail ∧ IsFirst b)
    (h : ∀ (j : Nat) k i, known[f.index + j]? = some k → items[j]? = some i → Yields k.2 i.1 i.2)
    (hform : f.form = .array) (hknown : f.members = known)
    (hlength : f.index + items.length ≤ known.length) (outer : List OpenRecord) (rest : Bytes)
    {place : Place} (hp : BeforePart place) :
    run { place, levels := f :: outer } (bytes ++ 93 :: rest) =
      goOn ((items.foldlM (fun (f : OpenRecord) (i : Bytes × Option Field) => i.2.map f.put) f).map
        fun f => close (f :: outer)) rest := by
  induction items generalizing f bytes place with
  | nil => cases hl
  | cons i items ih =>
    obtain ⟨hi, hfirsts⟩ := List.forall_mem_cons.1 hfirst
    obtain ⟨k, hk⟩ : ∃ k, known[f.index]? = some k := by
      rw [List.length_cons] at hlength
      exact ⟨_, List.getElem?_eq_getElem (by omega)⟩
    have hshape : f.shape? = some k.2 := by rw [OpenRecord.shape?, hknown, hk]; rfl
    have hnext := run_next_item hform hshape hi (h 0 k i hk rfl) outer hp
    rw [List.foldlM_cons]
    generalize hparts : (i :: items).map (fun i => i.1) = parts at hl
    cases hl with
    | @last before part after hb ha =>
      rw [List.map_cons, List.cons.injEq, List.map_eq_nil_iff] at hparts
      obtain ⟨rfl, rfl⟩ := hparts
      rw [List.append_assoc _ after,
        hnext hb (stops_append ha (Or.inr (Or.inr (Or.inl rfl))) rest)]
      cases i.2 with
      | none => rfl
      | some v =>
        have hclose : next { place := .after, levels := f.put v :: outer } 93 =
            .ok (close (f.put v :: outer)) := by
          simp [next, afterNext, OpenRecord.put, hform, isBlank]
        change run { place := .after, levels := f.put v :: outer } _ = _
        rw [run_blanks (next_after _) ha, run, hclose]
        rfl
    | @comma before part after bytes parts hb ha hl =>
      rw [List.map_cons, List.cons.injEq] at hparts
      obtain ⟨rfl, rfl⟩ := hparts
      have hmore : 0 < items.length := by
        rcases items with - | ⟨i', items⟩
        · cases hl
        · exact Nat.succ_pos _
      rw [List.append_assoc, List.cons_append, List.append_assoc _ after,
        hnext hb (stops_append ha (Or.inr (Or.inl rfl)) _)]
      cases i.2 with
      | none => rfl
      | some v =>
        have hfull : (f.put v).full = false := by
          rw [List.length_cons] at hlength
          simp only [OpenRecord.full, OpenRecord.put, hknown, decide_eq_false_iff_not]
          omega
        change run { place := .after, levels := f.put v :: outer } _ = _
        rw [run_comma (.inr hfull) outer ha]
        refine ih hl (f := f.put v) hfirsts ?_ hform hknown ?_ (Or.inr rfl)
        · intro j k i hk hi
          refine h (j + 1) k i ?_ hi
          rw [← hk]
          congr 1
          simp only [OpenRecord.put]
          omega
        · simp only [OpenRecord.put]
          rw [List.length_cons] at hlength
          omega

end Reader

end PresenceLink.Json
