import Mathlib.Data.List.Nodup
import PresenceLink.Proofs.Json.Contents

/-!
# Reading a record

The parts of a record are put together: the entries are the values of the known
members, wherever in an object they stand, and the items of an array in order.
So any spelling of a record is read as what it says.

* `Taken.members_all`, `Filled.items_all`: the entries of an object and of an
  array;
* `Spells.reads`: any spelling of a value is read as what it says;
* `readRecord_spells`: so is any document.
-/

namespace PresenceLink.Json

/-! ## What comes of the parts -/

variable {known : List (String × Shape)}

theorem of_shapeOf {name : String} {shape : Shape} (h : shapeOf known name = some shape) :
    known[known.findIdx fun k => k.1 == name]? = some (name, shape) := by
  obtain ⟨k, hk, rfl⟩ := Option.map_eq_some_iff.1 h
  obtain ⟨hlt, hget⟩ := List.getElem?_eq_some_iff.1 hk
  have hname := List.findIdx_getElem (w := hlt)
  rw [hget, beq_iff_eq] at hname
  rw [hk, ← hname]

theorem of_shapeOf_none {name : String} (h : shapeOf known name = none) :
    known.length ≤ (known.findIdx fun k => k.1 == name) ∧ ∀ k ∈ known, k.1 ≠ name := by
  have hlength := List.getElem?_eq_none_iff.1 (Option.map_eq_none_iff.1 h)
  refine ⟨hlength, fun k hk hname => ?_⟩
  have hlt := List.findIdx_lt_length_of_exists (p := fun k => k.1 == name) ⟨k, hk, by simp [hname]⟩
  omega

namespace Content

/-- What comes of the value of a member. -/
noncomputable def readAs (known : List (String × Shape)) (name : String) (c : Content) :
    Option Field :=
  (shapeOf known name).bind fun shape => c.read? shape

end Content

/-- An open object of which some members have been taken. -/
structure Taken (known : List (String × Shape)) (done : List (String × Content))
    (f : OpenRecord) : Prop where
  members : f.members = known
  entries : f.entries = known.map fun k => (done.lookup k.1).map (Content.field k.2)
  once : ∀ k ∈ known, (done.countP fun m => m.1 == k.1) ≤ 1

theorem countP_of_lookup_none {done : List (String × Content)} {name : String}
    (h : done.lookup name = none) : (done.countP fun m => m.1 == name) = 0 := by
  rw [List.lookup_eq_none_iff] at h
  rw [List.countP_eq_zero]
  intro m hm hname
  have hne := h m hm
  simp_all

theorem countP_of_lookup_some {done : List (String × Content)} {name : String} {c : Content}
    (h : done.lookup name = some c) : 0 < done.countP fun m => m.1 == name := by
  obtain ⟨before, after, rfl, -⟩ := List.lookup_eq_some_iff.1 h
  rw [List.countP_append, List.countP_cons_of_pos (by simp)]
  omega

section Snoc

variable {done : List (String × Content)} {name other : String} {c : Content}

theorem lookup_snoc (h : other ≠ name) :
    (done ++ [(name, c)]).lookup other = done.lookup other := by
  rw [List.lookup_append, List.lookup_cons, beq_false_of_ne h]
  exact Option.or_none

theorem lookup_snoc_self (h : done.lookup name = none) :
    (done ++ [(name, c)]).lookup name = some c := by
  rw [List.lookup_append, h, List.lookup_cons_self]
  rfl

theorem countP_snoc (h : other ≠ name) :
    ((done ++ [(name, c)]).countP fun m => m.1 == other) = done.countP fun m => m.1 == other := by
  rw [List.countP_append, List.countP_cons_of_neg (by simp [Ne.symm h])]
  rfl

theorem countP_snoc_self :
    ((done ++ [(name, c)]).countP fun m => m.1 == name) =
      (done.countP fun m => m.1 == name) + 1 := by
  rw [List.countP_append, List.countP_cons_of_pos (by simp)]
  rfl

end Snoc

namespace Taken

variable {done : List (String × Content)} {f : OpenRecord} {name : String}

/-- The record that is told the name of the next member. -/
def named (known : List (String × Shape)) (f : OpenRecord) (name : String) : OpenRecord :=
  { f with index := known.findIdx fun k => k.1 == name }

theorem shape?_named (h : Taken known done f) :
    (named known f name).shape? = shapeOf known name := by
  rw [shapeOf, ← h.members]
  rfl

/-- A member that is not known makes no difference. -/
theorem skip (h : Taken known done f) (hs : shapeOf known name = none) (c : Content) :
    f.select name = some (named known f name) ∧
      Taken known (done ++ [(name, c)]) (named known f name) := by
  obtain ⟨hlength, hunknown⟩ := of_shapeOf_none hs
  have hentry : f.entries[known.findIdx fun k => k.1 == name]? = none := by
    rw [h.entries, List.getElem?_map, List.getElem?_eq_none hlength]
    rfl
  refine ⟨?_, h.members, ?_, ?_⟩
  · simp only [OpenRecord.select, h.members, hentry, named]
  · refine h.entries.trans (List.map_congr_left fun k hk => ?_)
    rw [lookup_snoc (hunknown k hk)]
  · intro k hk
    rw [countP_snoc (hunknown k hk)]
    exact h.once k hk

/-- A known member is taken if it was not there before. -/
theorem select (h : Taken known done f) {shape : Shape} (hs : shapeOf known name = some shape) :
    f.select name = if (done.lookup name).isSome then none else some (named known f name) := by
  have hentry : f.entries[known.findIdx fun k => k.1 == name]? =
      some ((done.lookup name).map (Content.field shape)) := by
    rw [h.entries, List.getElem?_map, of_shapeOf hs]
    rfl
  simp only [OpenRecord.select, h.members, hentry, named]
  cases done.lookup name <;> rfl

/-- The value of a known member is put down for it and for no other. -/
theorem put (hn : (known.map Prod.fst).Nodup) (h : Taken known done f) {shape : Shape}
    (hs : shapeOf known name = some shape) (hl : done.lookup name = none) (c : Content) :
    Taken known (done ++ [(name, c)]) ((named known f name).put (c.field shape)) := by
  have hk := of_shapeOf hs
  have hlt := (List.getElem?_eq_some_iff.1 hk).1
  refine ⟨h.members, ?_, ?_⟩
  · change f.entries.set (known.findIdx fun k => k.1 == name) (some (c.field shape)) = _
    refine List.ext_getElem? fun j => ?_
    rw [List.getElem?_set, List.getElem?_map]
    split
    · rename_i hj
      rw [← hj, hk, h.entries, List.length_map, if_pos hlt, Option.map_some]
      dsimp only
      rw [lookup_snoc_self hl]
      rfl
    · rename_i hj
      rw [h.entries, List.getElem?_map]
      cases hkj : known[j]? with
      | none => rfl
      | some k =>
        have hne : k.1 ≠ name := by
          intro hname
          refine hj ((List.getElem?_inj (by rwa [List.length_map]) hn).1 ?_)
          rw [List.getElem?_map, List.getElem?_map, hk, hkj, ← hname]
          rfl
        simp only [Option.map_some, lookup_snoc hne]
  · intro k hk
    by_cases hname : k.1 = name
    · exact Nat.le_of_eq (by rw [hname, countP_snoc_self, countP_of_lookup_none hl])
    · rw [countP_snoc hname]
      exact h.once k hk

/-- Another member is taken, unless it is known and was there before or cannot
be read. -/
theorem member (hn : (known.map Prod.fst).Nodup) (h : Taken known done f) (name : String)
    (c : Content) :
    match f.member name (c.readAs known name) with
    | some g => Taken known (done ++ [(name, c)]) g ∧
        ∀ k ∈ known, k.1 = name → ¬ Content.Repeats k.2 c
    | none => ∃ k ∈ known, k.1 = name ∧
        (2 ≤ ((done ++ [(name, c)]).countP fun m => m.1 == k.1) ∨ Content.Repeats k.2 c) := by
  cases hs : shapeOf known name with
  | none =>
    obtain ⟨hselect, htaken⟩ := h.skip hs c
    rw [OpenRecord.member, hselect, Option.bind_some, h.shape?_named, hs]
    exact ⟨htaken, fun k hk hname => absurd hname ((of_shapeOf_none hs).2 k hk)⟩
  | some shape =>
    have hmem := List.mem_of_getElem? (of_shapeOf hs)
    rw [OpenRecord.member, h.select hs]
    cases hl : done.lookup name with
    | some old =>
      have hbefore := countP_of_lookup_some hl
      refine ⟨_, hmem, rfl, Or.inl ?_⟩
      rw [countP_snoc_self]
      exact Nat.succ_le_succ hbefore
    | none =>
      simp only [Option.isSome_none, Bool.false_eq_true, if_false, Option.bind_some, h.shape?_named, hs,
        Option.isSome_some, if_true, Content.readAs]
      by_cases hr : Content.Repeats shape c
      · rw [Content.read?_of_repeats hr]
        exact ⟨_, hmem, rfl, Or.inr hr⟩
      · rw [Content.read?_of_not_repeats hr]
        refine ⟨h.put hn hs hl c, fun k hk hname => ?_⟩
        rw [List.inj_on_of_nodup_map hn hk hmem hname]
        exact hr

/-- The members of an object are taken, unless a known one comes twice or cannot
be read. -/
theorem members_all (hn : (known.map Prod.fst).Nodup) (h : Taken known done f)
    (members : List (String × Content)) :
    match members.foldlM (fun (f : OpenRecord) m => f.member m.1 (m.2.readAs known m.1)) f with
    | some g => Taken known (done ++ members) g ∧
        ∀ k ∈ known, ∀ c, (k.1, c) ∈ members → ¬ Content.Repeats k.2 c
    | none => ∃ k ∈ known, 2 ≤ ((done ++ members).countP fun m => m.1 == k.1) ∨
        ∃ c, (k.1, c) ∈ members ∧ Content.Repeats k.2 c := by
  induction members generalizing done f with
  | nil => exact ⟨by rwa [List.append_nil], fun _ _ _ hc => absurd hc List.not_mem_nil⟩
  | cons m members ih =>
    obtain ⟨name, c⟩ := m
    have hfirst := h.member hn name c
    have hsnoc : done ++ (name, c) :: members = done ++ [(name, c)] ++ members := by simp
    rw [List.foldlM_cons, hsnoc]
    cases hv : f.member name (c.readAs known name) with
    | none =>
      rw [hv] at hfirst
      obtain ⟨k, hk, hname, hwhy⟩ := hfirst
      refine ⟨k, hk, ?_⟩
      rcases hwhy with hcount | hr
      · left
        rw [List.countP_append]
        exact Nat.le_trans hcount (Nat.le_add_right ..)
      · exact Or.inr ⟨c, by rw [hname]; exact List.mem_cons_self, hr⟩
    | some g =>
      rw [hv] at hfirst
      obtain ⟨hg, hread⟩ := hfirst
      have hothers := ih hg
      change match members.foldlM (fun (f : OpenRecord) m => f.member m.1 (m.2.readAs known m.1)) g with
        | some g => _
        | none => _
      cases hw : members.foldlM (fun (f : OpenRecord) m => f.member m.1 (m.2.readAs known m.1)) g with
      | none =>
        rw [hw] at hothers
        obtain ⟨k, hk, hcount | ⟨c', hc', hr⟩⟩ := hothers
        · exact ⟨k, hk, Or.inl hcount⟩
        · exact ⟨k, hk, Or.inr ⟨c', List.mem_cons_of_mem _ hc', hr⟩⟩
      | some g' =>
        rw [hw] at hothers
        obtain ⟨hg', hreads⟩ := hothers
        refine ⟨hg', fun k hk c' hc' => ?_⟩
        rcases List.mem_cons.1 hc' with he | hc'
        · obtain ⟨hname, rfl⟩ := Prod.mk.inj he
          exact hread k hk hname
        · exact hreads k hk c' hc'

/-- What comes of all members of an object. -/
theorem read_object (hn : (known.map Prod.fst).Nodup) (members : List (String × Content)) :
    (members.foldlM (fun (f : OpenRecord) m => f.member m.1 (m.2.readAs known m.1))
      (OpenRecord.opened .object known)).map (fun f => Field.record f.entries) =
      Content.read? (.record known) (.object members) := by
  have hstart : Taken known [] (OpenRecord.opened .object known) :=
    ⟨rfl, rfl, fun _ _ => Nat.zero_le 1⟩
  have hall := hstart.members_all hn members
  rw [List.nil_append] at hall
  cases hw : members.foldlM (fun (f : OpenRecord) m => f.member m.1 (m.2.readAs known m.1))
      (OpenRecord.opened .object known) with
  | none =>
    rw [hw] at hall
    obtain ⟨k, hk, hcount | ⟨c, hc, hr⟩⟩ := hall
    · exact (Content.read?_of_repeats (.twice hk hcount)).symm
    · exact (Content.read?_of_repeats (.member hk hc hr)).symm
  | some g =>
    rw [hw] at hall
    obtain ⟨hg, hreads⟩ := hall
    have hnever : ¬ Content.Repeats (.record known) (.object members) := by
      intro h
      cases h with
      | twice hk hcount => exact absurd (hg.once _ hk) (Nat.not_le.2 hcount)
      | member hk hc hr => exact hreads _ hk _ hc hr
    rw [Content.read?_of_not_repeats hnever, Content.field_object, Option.map_some, hg.entries]

end Taken

/-- An open array of which some items have been taken. -/
structure Filled (known : List (String × Shape)) (done : List Content) (f : OpenRecord) : Prop where
  members : f.members = known
  index : f.index = done.length
  entries : f.entries = known.mapIdx fun i k => done[i]?.map (Content.field k.2)

namespace Filled

variable {done : List Content} {f : OpenRecord}

theorem put (h : Filled known done f) {k : String × Shape} (hk : known[done.length]? = some k)
    (c : Content) : Filled known (done ++ [c]) (f.put (c.field k.2)) := by
  have hlt := (List.getElem?_eq_some_iff.1 hk).1
  refine ⟨h.members, ?_, ?_⟩
  · change f.index + 1 = _
    rw [h.index, List.length_append]
    rfl
  · change f.entries.set f.index (some (c.field k.2)) = _
    refine List.ext_getElem? fun j => ?_
    rw [List.getElem?_set, List.getElem?_mapIdx, h.entries, h.index]
    split
    · rename_i hj
      rw [← hj, hk, List.length_mapIdx, if_pos hlt, Option.map_some, List.getElem?_concat_length]
      rfl
    · rename_i hj
      rw [List.getElem?_mapIdx]
      cases known[j]? with
      | none => rfl
      | some k' =>
        have hsame : (done ++ [c])[j]? = done[j]? := by
          rcases Nat.lt_or_gt_of_ne hj with hlast | hbefore
          · rw [List.getElem?_eq_none (by rw [List.length_append]; exact hlast),
              List.getElem?_eq_none (Nat.le_of_lt hlast)]
          · exact List.getElem?_append_left hbefore
        simp only [Option.map_some, hsame]

/-- The items of an array are taken, unless one of them cannot be read. -/
theorem items_all (h : Filled known done f) (items : List (Bytes × Content))
    (hlength : done.length + items.length ≤ known.length) :
    match (List.zipWith (fun i k => (i.1, i.2.read? k.2)) items (known.drop done.length)).foldlM
        (fun (f : OpenRecord) (i : Bytes × Option Field) => i.2.map f.put) f with
    | some g => Filled known (done ++ items.map fun i => i.2) g ∧
        ∀ (j : Nat) k i, known[done.length + j]? = some k → items[j]? = some i →
          ¬ Content.Repeats k.2 i.2
    | none => ∃ (j : Nat) (k : String × Shape) (i : Bytes × Content),
        known[done.length + j]? = some k ∧ items[j]? = some i ∧ Content.Repeats k.2 i.2 := by
  induction items generalizing done f with
  | nil =>
    rw [List.zipWith_nil_left, List.map_nil, List.append_nil]
    exact ⟨h, fun _ _ _ _ hi => by simp at hi⟩
  | cons i items ih =>
    rw [List.length_cons] at hlength
    have hlt : done.length < known.length := by omega
    have hk : known[done.length]? = some known[done.length] := List.getElem?_eq_getElem hlt
    rw [List.drop_eq_getElem_cons hlt, List.zipWith_cons_cons, List.foldlM_cons]
    dsimp only
    by_cases hr : Content.Repeats known[done.length].2 i.2
    · rw [Content.read?_of_repeats hr]
      exact ⟨0, known[done.length], i, hk, rfl, hr⟩
    · rw [Content.read?_of_not_repeats hr]
      have hothers := ih (h.put hk i.2) (by rw [List.length_append, List.length_singleton]; omega)
      rw [List.length_append, List.length_singleton] at hothers
      change match List.foldlM _ (f.put (i.2.field known[done.length].2)) _ with
        | some g => _
        | none => _
      cases hw : List.foldlM (fun (f : OpenRecord) (i : Bytes × Option Field) => i.2.map f.put)
          (f.put (i.2.field known[done.length].2))
          (List.zipWith (fun i k => (i.1, i.2.read? k.2)) items (known.drop (done.length + 1))) with
      | none =>
        rw [hw] at hothers
        obtain ⟨j, k, i', hkj, hij, hrj⟩ := hothers
        exact ⟨j + 1, k, i', by rw [← hkj]; congr 1; omega, hij, hrj⟩
      | some g =>
        rw [hw] at hothers
        obtain ⟨hg, hreads⟩ := hothers
        refine ⟨by simpa using hg, fun j k i' hkj hij => ?_⟩
        cases j with
        | zero =>
          rw [Nat.add_zero, hk] at hkj
          cases hkj
          cases hij
          exact hr
        | succ j => exact hreads j k i' (by rw [← hkj]; congr 1; omega) hij

/-- What comes of all items of an array. -/
theorem read_array (items : List (Bytes × Content)) (hlength : items.length ≤ known.length) :
    ((List.zipWith (fun i k => (i.1, i.2.read? k.2)) items known).foldlM
      (fun (f : OpenRecord) (i : Bytes × Option Field) => i.2.map f.put)
      (OpenRecord.opened .array known)).map (fun f => Field.record f.entries) =
      Content.read? (.record known) (.array (items.map fun i => i.2)) := by
  have hstart : Filled known [] (OpenRecord.opened .array known) := by
    refine ⟨rfl, rfl, List.ext_getElem? fun i => ?_⟩
    rw [List.getElem?_mapIdx]
    exact List.getElem?_map
  have hall := hstart.items_all items (by rwa [List.length_nil, Nat.zero_add])
  rw [List.length_nil, List.drop_zero, List.nil_append] at hall
  cases hw : (List.zipWith (fun i k => (i.1, i.2.read? k.2)) items known).foldlM
      (fun (f : OpenRecord) (i : Bytes × Option Field) => i.2.map f.put)
      (OpenRecord.opened .array known) with
  | none =>
    rw [hw] at hall
    obtain ⟨j, k, i, hk, hi, hr⟩ := hall
    rw [Nat.zero_add] at hk
    exact (Content.read?_of_repeats (.item hk (by rw [List.getElem?_map, hi]; rfl) hr)).symm
  | some g =>
    rw [hw] at hall
    obtain ⟨hg, hreads⟩ := hall
    have hnever : ¬ Content.Repeats (.record known) (.array (items.map fun i => i.2)) := by
      intro h
      cases h with
      | item hk hc hr =>
        rw [List.getElem?_map] at hc
        obtain ⟨i, hi, rfl⟩ := Option.map_eq_some_iff.1 hc
        exact hreads _ _ i (by rw [Nat.zero_add]; exact hk) hi hr
    rw [Content.read?_of_not_repeats hnever, Content.field_array, Option.map_some, hg.entries]

end Filled

/-! ## Whole records -/

/-- The octet that opens a bracket. -/
def Bracket.opening : Bracket → UInt8
  | array => 91
  | object => 123

namespace Reader

/-- A reader behind a whole record, which is a document or the value of a
member. -/
def finished (v : Field) : List OpenRecord → Reader
  | [] => { place := .done ((Field.entries? (some v)).getD []), levels := [] }
  | levels => deliver v levels

theorem close_eq (f : OpenRecord) (outer : List OpenRecord) :
    close (f :: outer) = finished (.record f.entries) outer := by
  cases outer <;> rfl

/-- Some octets are a record, or tell that it cannot be read. -/
def Opens (known : List (String × Shape)) (bytes : Bytes) (v : Option Field) : Prop :=
  ∃ (form : Bracket) (inner : Bytes), bytes = form.opening :: inner ∧
    ∀ (outer : List OpenRecord) (rest : Bytes),
      run { place := .opened, levels := OpenRecord.opened form known :: outer } (inner ++ rest) =
        goOn (v.map fun v => finished v outer) rest

variable {known : List (String × Shape)}

theorem Opens.yields {bytes : Bytes} {v : Option Field} (h : Opens known bytes v) :
    Yields (.record known) bytes v := by
  obtain ⟨form, inner, rfl, hrun⟩ := h
  intro f outer rest _
  have hopen : next { place := .value (.record known), levels := f :: outer } form.opening =
      .ok { place := .opened, levels := OpenRecord.opened form known :: f :: outer } := by
    cases form <;> rfl
  rw [List.cons_append, run, hopen]
  exact hrun (f :: outer) rest

theorem opens_object {members : List (MemberForm × String × Content)} {bytes : Bytes}
    (hnames : (known.map Prod.fst).Nodup)
    (hn : ∀ m ∈ members, SpellsText m.2.1.toList m.1.name)
    (hw : ∀ m ∈ members, IsValue m.1.value)
    (hy : ∀ m ∈ members, ∀ k ∈ known, k.1 = m.2.1 → Yields k.2 m.1.value (m.2.2.read? k.2))
    (he : Enclosed 123 125 (members.map fun m => m.1.bytes) bytes) :
    Opens known bytes (Content.read? (.record known) (.object (members.map fun m => m.2))) := by
  have htold : ∀ m ∈ members.map fun m => (m.1, m.2.1, m.2.2.readAs known m.2.1),
      Told known m.1 m.2.1 m.2.2 := by
    intro t ht
    obtain ⟨m, hm, rfl⟩ := List.mem_map.1 ht
    refine ⟨hn m hm, fun shape hshape => ?_, fun _ => hw m hm⟩
    have hk := List.mem_of_getElem? (of_shapeOf hshape)
    rw [Content.readAs, hshape]
    exact hy m hm _ hk rfl
  have hread := Taken.read_object hnames (members.map fun m => m.2)
  rw [List.foldlM_map] at hread
  generalize hparts : members.map (fun m => m.1.bytes) = parts at he
  cases he with
  | @empty w hblank =>
    refine ⟨.object, w ++ [125], rfl, fun outer rest => ?_⟩
    obtain rfl := List.map_eq_nil_iff.1 hparts
    have hclose : next { place := .opened, levels := OpenRecord.opened .object known :: outer } 125 =
        .ok (close (OpenRecord.opened .object known :: outer)) := rfl
    rw [← hread, List.append_assoc, run_blanks (next_before (Or.inl rfl) _) hblank,
      List.singleton_append, run, hclose, close_eq]
    rfl
  | @parts _ bytes hl =>
    subst hparts
    refine ⟨.object, bytes ++ [125], rfl, fun outer rest => ?_⟩
    have hrun := run_members (members.map fun m => (m.1, m.2.1, m.2.2.readAs known m.2.1))
      (by rwa [List.map_map]) htold (f := OpenRecord.opened .object known) rfl rfl outer rest
      (Or.inl rfl)
    rw [List.foldlM_map] at hrun
    rw [List.append_assoc]
    refine hrun.trans ?_
    simp only [close_eq]
    rw [← hread, Option.map_map]
    rfl

theorem zipWith_left {α β γ : Type} (g : α → γ) {l : List α} {l' : List β}
    (h : l.length ≤ l'.length) : List.zipWith (fun a _ => g a) l l' = l.map g := by
  induction l generalizing l' with
  | nil => rw [List.zipWith_nil_left, List.map_nil]
  | cons a l ih =>
    cases l' with
    | nil => cases h
    | cons b l' => rw [List.zipWith_cons_cons, ih (Nat.le_of_succ_le_succ h), List.map_cons]

theorem opens_array {items : List (Bytes × Content)} {bytes : Bytes}
    (hlength : items.length ≤ known.length) (hw : ∀ i ∈ items, IsValue i.1)
    (hy : ∀ (j : Nat) k i, known[j]? = some k → items[j]? = some i → Yields k.2 i.1 (i.2.read? k.2))
    (he : Enclosed 91 93 (items.map fun i => i.1) bytes) :
    Opens known bytes (Content.read? (.record known) (.array (items.map fun i => i.2))) := by
  have hbytes : (List.zipWith (fun (i : Bytes × Content) k => (i.1, i.2.read? k.2)) items known).map
      (fun i => i.1) = items.map fun i => i.1 := by
    rw [List.map_zipWith]
    exact zipWith_left (fun i => i.1) hlength
  have hread := Filled.read_array items hlength
  generalize hparts : items.map (fun i => i.1) = parts at he hbytes
  cases he with
  | @empty w hblank =>
    refine ⟨.array, w ++ [93], rfl, fun outer rest => ?_⟩
    obtain rfl := List.map_eq_nil_iff.1 hparts
    have hclose : next { place := .opened, levels := OpenRecord.opened .array known :: outer } 93 =
        .ok (close (OpenRecord.opened .array known :: outer)) := rfl
    rw [← hread, List.append_assoc, run_blanks (next_before (Or.inl rfl) _) hblank,
      List.singleton_append, run, hclose, close_eq]
    rfl
  | @parts _ bytes hl =>
    subst hparts
    refine ⟨.array, bytes ++ [93], rfl, fun outer rest => ?_⟩
    have hrun := run_items (by rw [hbytes]; exact hl)
      (f := OpenRecord.opened .array known) ?_ ?_ rfl rfl ?_ outer rest (Or.inl rfl)
    · rw [List.append_assoc]
      refine hrun.trans ?_
      simp only [close_eq]
      rw [← hread, Option.map_map]
      rfl
    · intro i hi
      have hmem : i.1 ∈ items.map fun i => i.1 := hbytes ▸ List.mem_map_of_mem hi
      obtain ⟨j, hj, hij⟩ := List.mem_map.1 hmem
      rw [← hij]
      exact (hw j hj).first
    · intro j k i hk hi
      obtain ⟨i, k', hij, hk', rfl⟩ := List.getElem?_zipWith_eq_some.1 hi
      change known[_]? = some k at hk
      rw [show (OpenRecord.opened .array known).index + j = j from Nat.zero_add j, hk'] at hk
      cases hk
      exact hy j k i hk' hij
    · rw [List.length_zipWith]
      exact Nat.le_trans (Nat.le_of_eq (Nat.zero_add _)) (Nat.min_le_right ..)

end Reader

/-- Any spelling of a value is read as what it says, and one of a record also as
a document. -/
theorem Spells.reads {c : Content} {bytes : Bytes} (h : Spells c bytes) {shape : Shape}
    (hd : shape.Distinct) (hf : Content.Fits shape c) :
    Reader.Yields shape bytes (c.read? shape) ∧
      ∀ known, shape = .record known → c ≠ .null → Reader.Opens known bytes (c.read? shape) := by
  induction h generalizing shape with
  | null =>
    rw [Content.read?_of_not_repeats (fun h => by cases h), Content.field_null]
    exact ⟨Reader.yields_null shape, fun _ _ hc => absurd rfl hc⟩
  | text h =>
    rw [Content.read?_of_not_repeats (fun h => by cases h), Content.field_text]
    cases hf
    exact ⟨Reader.yields_text h, fun _ he => by cases he⟩
  | int32 n =>
    rw [Content.read?_of_not_repeats (fun h => by cases h), Content.field_int32]
    cases hf
    exact ⟨Reader.yields_int32 n, fun _ he => by cases he⟩
  | @object members bytes hn h he ih =>
    cases hf with
    | @object known _ hf =>
      cases hd with
      | record hnames hd =>
        have hparts : ∀ m ∈ members, ∀ k ∈ known, k.1 = m.2.1 →
            Reader.Yields k.2 m.1.value (m.2.2.read? k.2) := by
          intro m hm k hk hname
          exact (ih m hm (hd k hk) (hf k hk _ (List.mem_map.2 ⟨m, hm, by rw [hname]⟩))).1
        have hopens := Reader.opens_object hnames hn (fun m hm => (h m hm).isValue) hparts he
        refine ⟨hopens.yields, fun _ he _ => ?_⟩
        cases he
        exact hopens
  | @array items bytes h he ih =>
    cases hf with
    | @array known _ hlength hf =>
      cases hd with
      | record hnames hd =>
        have hparts : ∀ (j : Nat) k i, known[j]? = some k → items[j]? = some i →
            Reader.Yields k.2 i.1 (i.2.read? k.2) := by
          intro j k i hk hi
          exact (ih i (List.mem_of_getElem? hi) (hd k (List.mem_of_getElem? hk))
            (hf j k i.2 hk (by rw [List.getElem?_map, hi]; rfl))).1
        rw [List.length_map] at hlength
        have hopens := Reader.opens_array hlength (fun i hi => (h i hi).isValue) hparts he
        refine ⟨hopens.yields, fun _ he _ => ?_⟩
        cases he
        exact hopens
  | other h => cases hf

/-- A document in any spelling of a record, with blanks around it. -/
theorem readRecord_spells {c : Content} {bytes : Bytes} (h : Spells c bytes)
    {known : List (String × Shape)} (hd : Shape.Distinct (.record known))
    (hf : Content.Fits (.record known) c) (hc : c ≠ .null) {before after : Bytes}
    (hb : Blanks before) (ha : Blanks after) :
    readRecord known (before ++ bytes ++ after) =
      match c.read? (.record known) with
      | some v => .ok ((Field.entries? (some v)).getD [])
      | none => .error .mismatch := by
  obtain ⟨form, inner, rfl, hrun⟩ := (h.reads hd hf).2 known rfl hc
  have hblank : ∀ b, isBlank b = true →
      (Reader.start known).next b = .ok (Reader.start known) := by
    intro b hb
    simp only [Reader.start, Reader.next, hb, if_true]
  have hopen : (Reader.start known).next form.opening =
      .ok { place := .opened, levels := [OpenRecord.opened form known] } := by
    cases form <;> rfl
  rw [readRecord, List.append_assoc, Reader.run_blanks hblank hb, List.cons_append, Reader.run, hopen]
  dsimp only
  rw [hrun [] after]
  cases c.read? (.record known) with
  | none => rfl
  | some v =>
    have hdone : ∀ b, isBlank b = true → (Reader.finished v []).next b = .ok (Reader.finished v []) := by
      intro b hb
      simp only [Reader.finished, Reader.next, hb, if_true]
    have hrest := Reader.run_blanks hdone ha []
    rw [List.append_nil] at hrest
    rw [Option.map_some, Reader.goOn, hrest]
    rfl

end PresenceLink.Json
