/-!
# The latest value

A `LatestCell` hands the newest published value to a reader through three
buffers: one is filled by the writer, one is held by the reader, and the third
waits between them. Publishing swaps the writer's buffer with the waiting one,
taking swaps the reader's with it.

* `Distinct.publish`, `Distinct.take`: the three never share a buffer;
* `waiting_publish`: after publishing, the filled buffer waits.
-/

namespace PresenceLink

inductive BufferIndex where
  | first
  | second
  | third
  deriving DecidableEq, Repr

structure LatestCell (α : Type) where
  first : α
  second : α
  third : α
  /-- The buffer to fill next. -/
  writeIndex : BufferIndex
  /-- The buffer between writer and reader. -/
  backIndex : BufferIndex
  /-- The buffer taken last. -/
  readIndex : BufferIndex
  /-- Something was published and not yet taken. -/
  fresh : Bool
  deriving DecidableEq, Repr

namespace LatestCell

variable {α : Type}

def ofValue (a : α) : LatestCell α where
  first := a
  second := a
  third := a
  writeIndex := .first
  backIndex := .second
  readIndex := .third
  fresh := false

def buffer (c : LatestCell α) : BufferIndex → α
  | .first => c.first
  | .second => c.second
  | .third => c.third

def modify (c : LatestCell α) (i : BufferIndex) (f : α → α) : LatestCell α :=
  match i with
  | .first => { c with first := f c.first }
  | .second => { c with second := f c.second }
  | .third => { c with third := f c.third }

/-- Fill the writer's buffer from what it holds and hand it over. -/
def publish (c : LatestCell α) (f : α → α) : LatestCell α :=
  { c.modify c.writeIndex f with
    backIndex := c.writeIndex, writeIndex := c.backIndex, fresh := true }

/-- Take the waiting value, if it is new. -/
def take (c : LatestCell α) : Option α × LatestCell α :=
  if c.fresh then
    (some (c.buffer c.backIndex),
      { c with backIndex := c.readIndex, readIndex := c.backIndex, fresh := false })
  else (none, c)

/-- The three indices differ. -/
def Distinct (c : LatestCell α) : Prop :=
  c.writeIndex ≠ c.backIndex ∧ c.writeIndex ≠ c.readIndex ∧ c.backIndex ≠ c.readIndex

theorem distinct_ofValue (a : α) : (ofValue a).Distinct := by
  simp [Distinct, ofValue]

theorem buffer_modify (c : LatestCell α) (i j : BufferIndex) (f : α → α) :
    (c.modify i f).buffer j = if i = j then f (c.buffer j) else c.buffer j := by
  cases i <;> cases j <;> rfl

theorem readIndex_modify (c : LatestCell α) (i : BufferIndex) (f : α → α) :
    (c.modify i f).readIndex = c.readIndex := by cases i <;> rfl

theorem Distinct.publish {c : LatestCell α} (h : c.Distinct) (f : α → α) :
    (c.publish f).Distinct := by
  obtain ⟨h1, h2, h3⟩ := h
  refine ⟨fun e => h1 e.symm, ?_, ?_⟩
  · show c.backIndex ≠ (c.modify c.writeIndex f).readIndex
    rw [readIndex_modify]
    exact h3
  · show c.writeIndex ≠ (c.modify c.writeIndex f).readIndex
    rw [readIndex_modify]
    exact h2

theorem Distinct.take {c : LatestCell α} (h : c.Distinct) : c.take.2.Distinct := by
  obtain ⟨h1, h2, h3⟩ := h
  unfold LatestCell.take
  split
  · exact ⟨h2, h1, fun h => h3 h.symm⟩
  · exact ⟨h1, h2, h3⟩

/-- After publishing, what was made of the writer's buffer waits. -/
theorem waiting_publish (c : LatestCell α) (f : α → α) :
    (c.publish f).buffer (c.publish f).backIndex = f (c.buffer c.writeIndex) := by
  cases hw : c.writeIndex <;> simp [LatestCell.publish, modify, buffer, hw]

end LatestCell

end PresenceLink
