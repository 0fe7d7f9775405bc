import PresenceLink.Mailbox.LatestCell

/-!
# Three buffers that change hands

Three octets say who has which buffer of a cell: the number of the writer's
buffer, that of the reader's, and that of the waiting one together with a bit
that is set as long as nobody has taken it. Publishing and taking exchange two
of them and look at no buffer for it.

* `perm_numbers`: three buffers that differ are all there are;
* `indices_publish`, `indices_take`: the exchanges, in terms of the octets;
* `Rotated.publish`, `Rotated.take`: where the value published last and the one
  taken last are;
* `fresh_after_iff`: when there is something to take;
* `buffers_change_hands`: all of it, after any operations.
-/

namespace PresenceLink

namespace BufferIndex

/-- The number of a buffer. -/
def number : BufferIndex → UInt8
  | first => 0
  | second => 1
  | third => 2

theorem number_inj {i j : BufferIndex} : i.number = j.number ↔ i = j := by
  cases i <;> cases j <;> decide

theorem perm_numbers {i j k : BufferIndex} (hij : i ≠ j) (hik : i ≠ k) (hjk : j ≠ k) :
    [i.number, j.number, k.number].Perm [0, 1, 2] := by
  cases i <;> cases j <;> cases k <;> first | contradiction | decide

/-- The bits of an octet that hold the number of a buffer. -/
def indexMask : UInt8 := 0b011

/-- The bit that marks a buffer as new. -/
def dirty : UInt8 := 0b100

/-- The number of a buffer, marked if it is new. -/
def mark (i : BufferIndex) (new : Bool) : UInt8 := if new then i.number ||| dirty else i.number

theorem mark_number (i : BufferIndex) (new : Bool) : i.mark new &&& indexMask = i.number := by
  cases i <;> cases new <;> decide

theorem mark_dirty_iff (i : BufferIndex) (new : Bool) : i.mark new &&& dirty ≠ 0 ↔ new = true := by
  cases i <;> cases new <;> decide

end BufferIndex

namespace LatestCell

open BufferIndex (indexMask dirty)

variable {α : Type}

/-- What is done to a cell. -/
inductive Op (α : Type) where
  | publish (fill : α → α)
  | take

def act (c : LatestCell α) : Op α → LatestCell α
  | .publish fill => c.publish fill
  | .take => c.take.2

def after (c : LatestCell α) (ops : List (Op α)) : LatestCell α := ops.foldl act c

/-! ## Octets -/

/-- Who has which buffer. -/
structure Indices where
  write : UInt8
  /-- The number of the waiting buffer, marked if it is new. -/
  back : UInt8
  read : UInt8
  deriving DecidableEq, Repr

namespace Indices

def initial : Indices := { write := 0, back := 1, read := 2 }

/-- The number of the waiting buffer. -/
def waiting (o : Indices) : UInt8 := o.back &&& indexMask

def publish (o : Indices) : Indices := { o with back := o.write ||| dirty, write := o.waiting }

def take (o : Indices) : Indices :=
  if o.back &&& dirty = 0 then o else { o with back := o.read, read := o.waiting }

def act (o : Indices) : Op α → Indices
  | .publish _ => o.publish
  | .take => o.take

def after (o : Indices) (ops : List (Op α)) : Indices := ops.foldl act o

end Indices

/-- The octets of a cell. -/
def indices (c : LatestCell α) : Indices where
  write := c.writeIndex.number
  back := c.backIndex.mark c.fresh
  read := c.readIndex.number

theorem waiting_indices (c : LatestCell α) : c.indices.waiting = c.backIndex.number :=
  BufferIndex.mark_number c.backIndex c.fresh

theorem dirty_indices_iff (c : LatestCell α) : c.indices.back &&& dirty ≠ 0 ↔ c.fresh = true :=
  BufferIndex.mark_dirty_iff c.backIndex c.fresh

theorem indices_ofValue (a : α) : (ofValue a).indices = Indices.initial := rfl

theorem readIndex_publish (c : LatestCell α) (fill : α → α) :
    (c.publish fill).readIndex = c.readIndex := readIndex_modify c c.writeIndex fill

theorem indices_publish (c : LatestCell α) (fill : α → α) :
    (c.publish fill).indices = c.indices.publish := by
  rw [Indices.publish, waiting_indices, indices, readIndex_publish]
  rfl

theorem indices_take (c : LatestCell α) : c.take.2.indices = c.indices.take := by
  cases hfresh : c.fresh with
  | false =>
    have hclean : c.indices.back &&& dirty = 0 := by
      simpa [hfresh] using dirty_indices_iff c
    rw [LatestCell.take, hfresh, if_neg Bool.false_ne_true, Indices.take, if_pos hclean]
  | true =>
    have hdirty := (dirty_indices_iff c).2 hfresh
    rw [LatestCell.take, if_pos hfresh, Indices.take, if_neg hdirty, waiting_indices]
    rfl

theorem indices_after (c : LatestCell α) (ops : List (Op α)) :
    (c.after ops).indices = c.indices.after ops := by
  induction ops generalizing c with
  | nil => rfl
  | cons op ops ih =>
    have hact : (c.act op).indices = c.indices.act op := by
      cases op with
      | publish fill => exact indices_publish c fill
      | take => exact indices_take c
    change ((c.act op).after ops).indices = (c.indices.act op).after ops
    rw [ih, hact]

/-- Taking looks at the octets and at the waiting buffer, and at nothing else. -/
theorem take_congr {c c' : LatestCell α} (h : c'.indices = c.indices)
    (hbuffer : c'.buffer c.backIndex = c.buffer c.backIndex) : c'.take.1 = c.take.1 := by
  have hback : c'.backIndex = c.backIndex := by
    rw [← BufferIndex.number_inj, ← waiting_indices, ← waiting_indices, h]
  have hfresh : c'.fresh = c.fresh := by
    rw [Bool.eq_iff_iff, ← dirty_indices_iff, ← dirty_indices_iff, h]
  simp only [LatestCell.take, hfresh, hback, hbuffer, apply_ite Prod.fst]

/-! ## Buffers -/

theorem buffer_publish_of_ne (c : LatestCell α) (fill : α → α) {i : BufferIndex}
    (h : i ≠ c.writeIndex) : (c.publish fill).buffer i = c.buffer i := by
  change (c.modify c.writeIndex fill).buffer i = c.buffer i
  rw [buffer_modify, if_neg h.symm]

theorem fresh_take (c : LatestCell α) : c.take.2.fresh = false := by
  cases hfresh : c.fresh <;> simp [LatestCell.take, hfresh]

theorem buffer_take (c : LatestCell α) (i : BufferIndex) : c.take.2.buffer i = c.buffer i := by
  unfold LatestCell.take
  split <;> rfl

/-- The buffers that are handed to the reader, with what is in them. -/
def published (c : LatestCell α) : List (Op α) → List (BufferIndex × α)
  | [] => []
  | .publish fill :: ops =>
    (c.writeIndex, fill (c.buffer c.writeIndex)) :: published (c.publish fill) ops
  | .take :: ops => published c.take.2 ops

/-- The buffers that the reader takes, with what it is given. -/
def taken (c : LatestCell α) : List (Op α) → List (BufferIndex × α)
  | [] => []
  | .publish fill :: ops => taken (c.publish fill) ops
  | .take :: ops => (c.take.1.map (c.backIndex, ·)).toList ++ taken c.take.2 ops

/-- A cell in which some values have been published and some taken: the latest
of the former waits if it is new, and the reader still has the latest of the
latter. -/
structure Rotated (c : LatestCell α) (published taken : List (BufferIndex × α)) : Prop where
  distinct : c.Distinct
  waits : c.fresh = true → published.getLast? = some (c.backIndex, c.buffer c.backIndex)
  kept : ∀ p ∈ taken.getLast?, p = (c.readIndex, c.buffer c.readIndex)

section Rotated

variable {c : LatestCell α} {given gone : List (BufferIndex × α)}

theorem rotated_ofValue (a : α) : (ofValue a).Rotated [] [] where
  distinct := distinct_ofValue a
  waits := nofun
  kept := nofun

theorem Rotated.publish (h : c.Rotated given gone) (fill : α → α) :
    (c.publish fill).Rotated (given ++ [(c.writeIndex, fill (c.buffer c.writeIndex))]) gone where
  distinct := h.distinct.publish fill
  waits _ := by
    rw [List.getLast?_concat, waiting_publish]
    rfl
  kept p hp := by
    -- The writer does not have the reader's buffer.
    rw [readIndex_publish, buffer_publish_of_ne c fill h.distinct.2.1.symm]
    exact h.kept p hp

theorem Rotated.take (h : c.Rotated given gone) :
    c.take.2.Rotated given (gone ++ (c.take.1.map (c.backIndex, ·)).toList) := by
  refine ⟨h.distinct.take, ?_, ?_⟩
  · rw [fresh_take]
    exact nofun
  · cases hfresh : c.fresh with
    | false =>
      simp only [LatestCell.take, hfresh, Bool.false_eq_true, ↓reduceIte, Option.map_none,
        Option.toList_none, List.append_nil]
      exact h.kept
    | true =>
      simp only [LatestCell.take, hfresh, ↓reduceIte, Option.map_some, Option.toList_some,
        List.getLast?_concat, Option.mem_def, Option.some.injEq]
      rintro p rfl
      rfl

theorem Rotated.after (h : c.Rotated given gone) (ops : List (Op α)) :
    (c.after ops).Rotated (given ++ c.published ops) (gone ++ c.taken ops) := by
  induction ops generalizing c given gone with
  | nil =>
    rw [published, taken, List.append_nil, List.append_nil]
    exact h
  | cons op ops ih =>
    cases op with
    | publish fill =>
      rw [published, taken, List.append_cons]
      exact ih (h.publish fill)
    | take =>
      rw [published, taken, ← List.append_assoc]
      exact ih h.take

end Rotated

/-- There is something to take if something was published and nothing was taken
since. -/
theorem fresh_after_iff (c : LatestCell α) (ops : List (Op α)) :
    (c.after ops).fresh = true ↔
      (c.fresh = true ∧ .take ∉ ops) ∨
        ∃ before fill after, ops = before ++ .publish fill :: after ∧ .take ∉ after := by
  induction ops generalizing c with
  | nil => simp [after]
  | cons op ops ih =>
    change ((c.act op).after ops).fresh = true ↔ _
    rw [ih]
    constructor
    · rintro (⟨hfresh, hops⟩ | ⟨before, fill, after, rfl, hafter⟩)
      · cases op with
        | publish fill => exact Or.inr ⟨[], fill, ops, rfl, hops⟩
        | take => simp [act, fresh_take] at hfresh
      · exact Or.inr ⟨op :: before, fill, after, rfl, hafter⟩
    · rintro (⟨hfresh, hops⟩ | ⟨before, fill, after, hsplit, hafter⟩)
      · cases op with
        | publish fill => exact Or.inl ⟨rfl, fun h => hops (List.mem_cons_of_mem _ h)⟩
        | take => exact absurd List.mem_cons_self hops
      · cases before with
        | nil =>
          obtain ⟨rfl, rfl⟩ := List.cons.inj hsplit
          exact Or.inl ⟨rfl, hafter⟩
        | cons op' before =>
          obtain ⟨rfl, rfl⟩ := List.cons.inj hsplit
          exact Or.inr ⟨before, fill, after, rfl, hafter⟩

/-- **The buffers change hands and nobody shares one.** The octets of a cell come
from exchanges among them, and the numbers in them are always those of the three
buffers. Publishing changes only the writer's buffer, and taking changes none. The
reader still has what it took last, and publishing leaves that alone. The mark is
set if and only if something was published since the reader asked last; the
value published last then waits where it was put, and it is this that is taken,
whatever the other buffers hold. Without the mark nothing is taken. -/
theorem buffers_change_hands (a : α) (ops : List (Op α)) :
    let c := (ofValue a).after ops
    let o := c.indices
    o = Indices.initial.after ops ∧
    [o.write, o.waiting, o.read].Perm [0, 1, 2] ∧
    (∀ fill i, i.number ≠ o.write → (c.publish fill).buffer i = c.buffer i) ∧
    (∀ i, c.take.2.buffer i = c.buffer i) ∧
    (∀ i v, (taken (ofValue a) ops).getLast? = some (i, v) →
      i.number = o.read ∧ c.buffer i = v ∧ ∀ fill, (c.publish fill).buffer i = v) ∧
    (o.back &&& dirty ≠ 0 ↔
      ∃ before fill after, ops = before ++ .publish fill :: after ∧ .take ∉ after) ∧
    (o.back &&& dirty ≠ 0 → ∃ i v, (published (ofValue a) ops).getLast? = some (i, v) ∧
      i.number = o.waiting ∧ c.buffer i = v ∧ c.take.1 = some v ∧
      ∀ c' : LatestCell α, c'.indices = o → c'.buffer i = v → c'.take.1 = some v) ∧
    (o.back &&& dirty = 0 → c.take = (none, c)) := by
  intro c o
  have hrotated : c.Rotated (published (ofValue a) ops) (taken (ofValue a) ops) :=
    (rotated_ofValue a).after ops
  obtain ⟨hback, hread, hbackRead⟩ := hrotated.distinct
  have hwaiting : o.waiting = c.backIndex.number := waiting_indices c
  have hdirty : o.back &&& dirty ≠ 0 ↔ c.fresh = true := dirty_indices_iff c
  refine ⟨?octets, ?numbers, ?publish, buffer_take c, ?kept, ?marked, ?waits, ?nothing⟩
  case octets =>
    rw [← indices_ofValue a]
    exact indices_after (ofValue a) ops
  case numbers =>
    rw [hwaiting]
    exact BufferIndex.perm_numbers hback hread hbackRead
  case publish =>
    intro fill i hi
    apply buffer_publish_of_ne
    rintro rfl
    exact hi rfl
  case kept =>
    intro i v hlast
    obtain ⟨rfl, rfl⟩ := Prod.mk.inj (hrotated.kept _ hlast)
    exact ⟨rfl, rfl, fun fill => buffer_publish_of_ne c fill hread.symm⟩
  case marked =>
    rw [hdirty, fresh_after_iff]
    constructor
    · rintro (⟨hnew, -⟩ | h)
      · cases hnew
      · exact h
    · exact Or.inr
  case waits =>
    intro hmarked
    have hfresh := hdirty.1 hmarked
    have htake : c.take.1 = some (c.buffer c.backIndex) := by rw [LatestCell.take, if_pos hfresh]
    refine ⟨_, _, hrotated.waits hfresh, hwaiting.symm, rfl, htake, ?_⟩
    intro c' hindices hbuffer
    rw [take_congr hindices hbuffer, htake]
  case nothing =>
    intro hclean
    have hold : ¬c.fresh = true := by
      rw [← hdirty]
      exact not_not_intro hclean
    rw [LatestCell.take, if_neg hold]

/-- Two values, of which the second is taken, and a third. -/
example : (Indices.initial.after (α := Nat)
    [.publish fun _ => 1, .publish fun _ => 2, .take, .publish fun _ => 3]) =
      { write := 2, back := 0b100, read := 1 } := by decide

end LatestCell

end PresenceLink
