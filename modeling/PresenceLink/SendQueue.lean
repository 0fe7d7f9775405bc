import PresenceLink.Text.Utf8

/-!
# The send queue

A ring of slots with a buffer each. A producer reserves a slot, fills it and
either commits or abandons it; the consumer takes committed messages in the
order of their reservations. A reservation that is neither committed nor
abandoned holds up those behind it; abandoned ones are passed over.

Reservations are numbered from zero. Number `r` has the slot `r` modulo the
number of slots, and is live as long as that slot is being written.

* `reserve_eq_none_iff`: a reservation is refused exactly when all slots are
  taken;
* `pending_drain`: every message taken leaves fewer reservations waiting.
-/

namespace PresenceLink

inductive SlotState where
  | empty
  | writing
  | ready
  | abandoned
  deriving DecidableEq, Repr

/-- A buffer and how much of it is a message. -/
structure Slot where
  state : SlotState
  length : Nat
  buffer : Bytes
  deriving DecidableEq, Repr

namespace Slot

def fresh (size : Nat) : Slot := { state := .empty, length := 0, buffer := List.replicate size 0 }

/-- The octets of the message in the slot. -/
def message (s : Slot) : Bytes := s.buffer.take s.length

end Slot

structure SendQueue where
  slots : List Slot
  slotCapacity : Nat
  /-- Reservations made so far. -/
  nextAdd : Nat
  /-- Reservations released so far. -/
  nextSend : Nat
  /-- Slots that are committed or abandoned. -/
  pending : Nat
  /-- Slots that are not empty. -/
  occupied : Nat
  /-- A message has been taken and not yet released. -/
  draining : Bool
  deriving DecidableEq, Repr

namespace SendQueue

/-- A queue of empty slots; there is at least one, of at least one octet. -/
def ofSize (slots slotCapacity : Nat) : SendQueue where
  slots := List.replicate (Nat.max slots 1) (Slot.fresh (Nat.max slotCapacity 1))
  slotCapacity := Nat.max slotCapacity 1
  nextAdd := 0
  nextSend := 0
  pending := 0
  occupied := 0
  draining := false

def capacity (q : SendQueue) : Nat := q.slots.length

/-- The slot of reservation `r`. -/
def slotOf (q : SendQueue) (r : Nat) : Option Slot := q.slots[r % q.slots.length]?

def setSlot (q : SendQueue) (r : Nat) (s : Slot) : SendQueue :=
  { q with slots := q.slots.set (r % q.slots.length) s }

def setState (q : SendQueue) (r : Nat) (state : SlotState) : SendQueue :=
  match q.slotOf r with
  | some s => q.setSlot r { s with state }
  | none => q

/-! ## Producing -/

/-- Reserve the next slot, unless all are taken. -/
def reserve (q : SendQueue) : Option (Nat × SendQueue) :=
  if q.slots.length ≤ q.occupied then none
  else
    let q' := q.setState q.nextAdd .writing
    some (q.nextAdd, { q' with occupied := q.occupied + 1, nextAdd := q.nextAdd + 1 })

/-- The slot of a live reservation. -/
def writing? (q : SendQueue) (r : Nat) : Option Slot :=
  if q.nextSend ≤ r ∧ r < q.nextAdd then (q.slotOf r).filter (·.state = .writing) else none

/-- The buffer of a live reservation. -/
def buffer? (q : SendQueue) (r : Nat) : Option Bytes := (q.writing? r).map (·.buffer)

/-- Replace the buffer of a live reservation by one of the same size. -/
def fill (q : SendQueue) (r : Nat) (buffer : Bytes) : SendQueue :=
  match q.writing? r with
  | some s => if buffer.length = s.buffer.length then q.setSlot r { s with buffer } else q
  | none => q

/-- Where a piece lands in a buffer, and how much of it fits. -/
def overwrite (buffer : Bytes) (offset : Nat) (piece : Bytes) : Bytes × Nat :=
  let start := Nat.min offset buffer.length
  let count := Nat.min piece.length (buffer.length - start)
  (buffer.take start ++ piece.take count ++ buffer.drop (start + count), count)

/-- Write a piece at an offset of a live reservation; the result is the number
of octets that fit. -/
def write (q : SendQueue) (r offset : Nat) (piece : Bytes) : Option (Nat × SendQueue) :=
  match q.buffer? r with
  | some buffer =>
    let (buffer, count) := overwrite buffer offset piece
    some (count, q.fill r buffer)
  | none => none

/-- Make the first `length` octets of a live reservation a message. -/
def commit (q : SendQueue) (r length : Nat) : SendQueue :=
  match q.writing? r with
  | some s =>
    { q.setSlot r { s with state := .ready, length := Nat.min length q.slotCapacity } with
      pending := q.pending + 1 }
  | none => q

/-- Give up a live reservation. -/
def abandon (q : SendQueue) (r : Nat) : SendQueue :=
  match q.writing? r with
  | some s => { q.setSlot r { s with state := .abandoned } with pending := q.pending + 1 }
  | none => q

/-- Queue a whole message; nothing if there is no room. -/
def push (q : SendQueue) (message : Bytes) : Option SendQueue :=
  match q.reserve with
  | none => none
  | some (r, q) =>
    match q.write r 0 message with
    | some (_, q) => some (q.commit r message.length)
    | none => none

/-! ## Consuming -/

/-- The oldest slot that is not released. -/
def head? (q : SendQueue) : Option Slot := q.slotOf q.nextSend

/-- Empty the oldest slot. -/
def release (q : SendQueue) : SendQueue :=
  { q.setState q.nextSend .empty with
    nextSend := q.nextSend + 1, pending := q.pending - 1, occupied := q.occupied - 1 }

/-- Release abandoned slots from the oldest on, at most a given number. -/
def skipAbandoned : Nat → SendQueue → SendQueue
  | 0, q => q
  | n + 1, q =>
    match q.head? with
    | some { state := .abandoned, .. } => skipAbandoned n q.release
    | _ => q

/-- The message that would be taken now. -/
def front? (q : SendQueue) : Option Bytes :=
  if q.pending = 0 then none
  else match q.head? with
    | some s => if s.state = .ready then some s.message else none
    | none => none

/-- Take the oldest message and keep its slot until `unhold`. Only one message
can be held. -/
def hold (q : SendQueue) : Option Bytes × SendQueue :=
  if q.draining then (none, q)
  else
    let q := skipAbandoned q.pending q
    match q.front? with
    | some message => (some message, { q with draining := true })
    | none => (none, q)

/-- Release the slot of the held message. -/
def unhold (q : SendQueue) : SendQueue :=
  if q.draining then { q.release with draining := false } else q

/-- Take the oldest message and release its slot at once. -/
def drain (q : SendQueue) : Option Bytes × SendQueue :=
  match q.hold with
  | (some message, q) => (some message, q.unhold)
  | (none, q) => (none, q)

def describe (q : SendQueue) : String :=
  "SendQueue \x7b capacity: " ++ toString q.capacity ++ ", slot_capacity: " ++
    toString q.slotCapacity ++ ", pending: " ++ toString q.pending ++ " \x7d"

/-! ## Small laws -/

theorem reserve_eq_none_iff (q : SendQueue) : q.reserve = none ↔ q.slots.length ≤ q.occupied := by
  unfold reserve
  split <;> simp_all

@[simp] theorem slots_length_setSlot (q : SendQueue) (r : Nat) (s : Slot) :
    (q.setSlot r s).slots.length = q.slots.length := by simp [setSlot]

@[simp] theorem slots_length_setState (q : SendQueue) (r : Nat) (state : SlotState) :
    (q.setState r state).slots.length = q.slots.length := by
  unfold setState
  split <;> simp

@[simp] theorem slots_length_release (q : SendQueue) : q.release.slots.length = q.slots.length := by
  simp [release]

@[simp] theorem pending_release (q : SendQueue) : q.release.pending = q.pending - 1 := rfl

theorem pending_skipAbandoned_le (n : Nat) (q : SendQueue) :
    (skipAbandoned n q).pending ≤ q.pending := by
  induction n generalizing q with
  | zero => exact Nat.le_refl _
  | succ n ih =>
    unfold skipAbandoned
    split
    · exact Nat.le_trans (ih _) (by simp)
    · exact Nat.le_refl _

theorem pending_pos_of_front? {q : SendQueue} {message : Bytes} (h : q.front? = some message) :
    0 < q.pending := by
  unfold front? at h
  split at h
  · cases h
  · omega

/-- Taking a message leaves fewer pending slots. -/
theorem pending_drain {q q' : SendQueue} {message : Bytes} (h : q.drain = (some message, q')) :
    q'.pending < q.pending := by
  unfold drain hold at h
  split at h
  · rename_i m q₁ hm
    split at hm
    · cases hm
    · simp only at hm
      split at hm
      · rename_i m' hf
        cases hm
        cases h
        have := pending_pos_of_front? hf
        have := pending_skipAbandoned_le q.pending q
        simp only [unhold, ↓reduceIte, pending_release]
        omega
      · cases hm
  · cases h

end SendQueue

end PresenceLink
