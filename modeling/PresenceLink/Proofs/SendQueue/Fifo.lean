import PresenceLink.SendQueue

/-!
# A bounded queue of reservations

What a send queue is meant to be: the unreleased reservations in the order in
which they were made, and the buffers that are free for the next ones. There
are no slots, indices or counts. A message is fixed when its reservation is
committed; a buffer that becomes free goes behind the other free ones with its
old contents.

* `hold_eq_some_iff`: which message is given out, and when;
* `bounds_run`: the number of reservations and the size of a message stay
  bounded;
* `reservation?_step`: operations on other reservations change nothing.
-/

namespace PresenceLink

/-- How far a reservation has come. -/
inductive Stage where
  | writing
  | committed (message : Bytes)
  | abandoned
  deriving DecidableEq, Repr

structure Reservation where
  stage : Stage
  buffer : Bytes
  deriving DecidableEq, Repr

structure Fifo where
  slotCapacity : Nat
  /-- The number of the oldest unreleased reservation. -/
  first : Nat
  /-- The unreleased reservations, oldest first. -/
  live : List Reservation
  /-- The buffers of the next reservations. -/
  free : List Bytes
  /-- The message of the oldest reservation is in use. -/
  held : Bool
  deriving DecidableEq, Repr

namespace Reservation

def isAbandoned (x : Reservation) : Bool := x.stage = .abandoned

def message? (x : Reservation) : Option Bytes :=
  match x.stage with
  | .committed message => some message
  | _ => none

end Reservation

namespace SendQueue

/-- The operations on a queue. Reservations are given by their numbers. -/
inductive Op where
  | reserve
  /-- Look at the buffer of a reservation. -/
  | peek (r : Nat)
  | fill (r : Nat) (buffer : Bytes)
  | write (r offset : Nat) (piece : Bytes)
  | commit (r length : Nat)
  | abandon (r : Nat)
  | hold
  | unhold
  deriving DecidableEq, Repr

/-- The reservation that an operation may change. -/
def Op.target? : Op → Option Nat
  | fill r _ | write r _ _ | commit r _ | abandon r => some r
  | _ => none

/-- What an operation tells its caller. -/
inductive Answer where
  | reserved (r : Option Nat)
  | buffer (octets : Option Bytes)
  | written (count : Option Nat)
  | message (octets : Option Bytes)
  | done
  deriving DecidableEq, Repr

/-- Perform operations one after the other and collect the answers. -/
def run {σ : Type} (step : σ → Op → Answer × σ) : σ → List Op → List Answer × σ
  | s, [] => ([], s)
  | s, op :: ops =>
    let (answer, s) := step s op
    let (answers, s) := run step s ops
    (answer :: answers, s)

end SendQueue

namespace Fifo

def ofSize (slots slotCapacity : Nat) : Fifo where
  slotCapacity := Nat.max slotCapacity 1
  first := 0
  live := []
  free := List.replicate (Nat.max slots 1) (List.replicate (Nat.max slotCapacity 1) 0)
  held := false

/-- Make a reservation while a buffer is free. -/
def reserve (f : Fifo) : Option Nat × Fifo :=
  match f.free with
  | [] => (none, f)
  | buffer :: free =>
    (some (f.first + f.live.length), { f with live := f.live ++ [⟨.writing, buffer⟩], free })

/-- The buffer of a reservation that is still open. -/
def buffer? (f : Fifo) (r : Nat) : Option Bytes :=
  if f.first ≤ r then
    match f.live[r - f.first]? with
    | some ⟨.writing, buffer⟩ => some buffer
    | _ => none
  else none

/-- Let an open reservation become another one. Nothing else changes. -/
def replace (f : Fifo) (r : Nat) (next : Bytes → Reservation) : Fifo :=
  match f.buffer? r with
  | some buffer => { f with live := f.live.set (r - f.first) (next buffer) }
  | none => f

/-- Replace the buffer of an open reservation by one of the same size. -/
def fill (f : Fifo) (r : Nat) (buffer : Bytes) : Fifo :=
  f.replace r fun old => ⟨.writing, if buffer.length = old.length then buffer else old⟩

/-- Fix the message of an open reservation. -/
def commit (f : Fifo) (r length : Nat) : Fifo :=
  f.replace r fun buffer => ⟨.committed (buffer.take (Nat.min length f.slotCapacity)), buffer⟩

def abandon (f : Fifo) (r : Nat) : Fifo := f.replace r fun buffer => ⟨.abandoned, buffer⟩

/-- Release the oldest reservation. -/
def release (f : Fifo) : Fifo :=
  match f.live with
  | [] => f
  | x :: live => { f with first := f.first + 1, live, free := f.free ++ [x.buffer] }

/-- Release the oldest reservations as long as they are abandoned. -/
def skip (f : Fifo) : Fifo :=
  let gone := f.live.takeWhile Reservation.isAbandoned
  { f with
    first := f.first + gone.length
    live := f.live.dropWhile Reservation.isAbandoned
    free := f.free ++ gone.map (·.buffer) }

/-- Take the oldest message, unless one is held or it is not yet there. -/
def hold (f : Fifo) : Option Bytes × Fifo :=
  if f.held then (none, f)
  else
    match f.skip.live.head?.bind Reservation.message? with
    | some message => (some message, { f.skip with held := true })
    | none => (none, f.skip)

/-- Release the reservation of the held message. -/
def unhold (f : Fifo) : Fifo := if f.held then { f.release with held := false } else f

def step (f : Fifo) : SendQueue.Op → SendQueue.Answer × Fifo
  | .reserve =>
    let (r, f) := f.reserve
    (.reserved r, f)
  | .peek r => (.buffer (f.buffer? r), f)
  | .fill r buffer => (.done, f.fill r buffer)
  | .write r offset piece =>
    match f.buffer? r with
    | some old =>
      let (buffer, count) := SendQueue.overwrite old offset piece
      (.written (some count), f.fill r buffer)
    | none => (.written none, f)
  | .commit r length => (.done, f.commit r length)
  | .abandon r => (.done, f.abandon r)
  | .hold =>
    let (message, f) := f.hold
    (.message message, f)
  | .unhold => (.done, f.unhold)

/-! ## Small laws -/

theorem buffer?_eq_some_iff {f : Fifo} {r : Nat} {buffer : Bytes} :
    f.buffer? r = some buffer ↔
      f.first ≤ r ∧ f.live[r - f.first]? = some ⟨.writing, buffer⟩ := by
  unfold buffer?
  split
  · rename_i hr
    simp only [hr, true_and]
    split
    · rename_i b hb
      simp [hb]
    · rename_i hb
      constructor
      · intro h
        cases h
      · intro h
        exact absurd h (hb buffer)
  · simp [*]

theorem replace_of_buffer? {f : Fifo} {r : Nat} {buffer : Bytes} (h : f.buffer? r = some buffer)
    (next : Bytes → Reservation) :
    f.replace r next = { f with live := f.live.set (r - f.first) (next buffer) } := by
  rw [replace, h]

theorem replace_of_closed {f : Fifo} {r : Nat} (h : f.buffer? r = none)
    (next : Bytes → Reservation) : f.replace r next = f := by
  rw [replace, h]

/-- A reservation that is replaced by itself. -/
theorem replace_same {f : Fifo} {r : Nat} {buffer : Bytes} {next : Bytes → Reservation}
    (h : f.buffer? r = some buffer) (hn : next buffer = ⟨.writing, buffer⟩) :
    f.replace r next = f := by
  obtain ⟨-, hget⟩ := buffer?_eq_some_iff.1 h
  obtain ⟨hk, hget'⟩ := List.getElem?_eq_some_iff.1 hget
  rw [replace_of_buffer? h, hn, ← hget', List.set_getElem_self hk]

/-- Skipping is releasing one abandoned reservation after the other. -/
theorem skip_of_abandoned {f : Fifo} {x : Reservation} {live : List Reservation}
    (h : f.live = x :: live) (hx : x.isAbandoned = true) : f.skip = f.release.skip := by
  simp only [skip, release, h, List.takeWhile_cons, List.dropWhile_cons, hx, ↓reduceIte,
    List.length_cons, List.map_cons, List.append_assoc, List.cons_append, List.nil_append]
  congr 1
  omega

theorem skip_of_kept {f : Fifo} (h : ∀ x ∈ f.live.head?, x.isAbandoned = false) : f.skip = f := by
  obtain ⟨slotCapacity, first, live, free, held⟩ := f
  cases live with
  | nil => simp [skip]
  | cons x live => simp [skip, h x rfl]

theorem hold_eq_some_iff {f : Fifo} {message : Bytes} :
    f.hold.1 = some message ↔ f.held = false ∧ ∃ buffer rest,
      f.live.dropWhile Reservation.isAbandoned = ⟨.committed message, buffer⟩ :: rest := by
  unfold hold
  cases hh : f.held with
  | true => simp
  | false =>
    simp only [Bool.false_eq_true, ↓reduceIte, skip, true_and]
    cases hl : f.live.dropWhile Reservation.isAbandoned with
    | nil => simp
    | cons x rest =>
      obtain ⟨stage, buffer⟩ := x
      cases stage <;> simp [Reservation.message?]

/-! ## The bounds -/

/-- How many reservations there can be, and how long a message. -/
def bounds (f : Fifo) : Nat × Nat := (f.live.length + f.free.length, f.slotCapacity)

theorem bounds_reserve (f : Fifo) : f.reserve.2.bounds = f.bounds := by
  unfold reserve
  split
  · rfl
  · rename_i buffer free h
    simp only [bounds, h, List.length_append, List.length_cons, List.length_nil, Prod.mk.injEq,
      and_true]
    omega

theorem bounds_replace (f : Fifo) (r : Nat) (next : Bytes → Reservation) :
    (f.replace r next).bounds = f.bounds := by
  unfold replace
  split
  · simp [bounds]
  · rfl

theorem bounds_release (f : Fifo) : f.release.bounds = f.bounds := by
  unfold release
  split
  · rfl
  · rename_i x live h
    simp only [bounds, h, List.length_append, List.length_cons, List.length_nil, Prod.mk.injEq,
      and_true]
    omega

theorem bounds_skip (f : Fifo) : f.skip.bounds = f.bounds := by
  have h := congrArg List.length
    (List.takeWhile_append_dropWhile (p := Reservation.isAbandoned) (l := f.live))
  simp only [List.length_append] at h
  simp only [bounds, skip, List.length_append, List.length_map, Prod.mk.injEq, and_true]
  omega

theorem bounds_hold (f : Fifo) : f.hold.2.bounds = f.bounds := by
  unfold hold
  split
  · rfl
  · split <;> exact bounds_skip f

theorem bounds_unhold (f : Fifo) : f.unhold.bounds = f.bounds := by
  unfold unhold
  split
  · exact bounds_release f
  · rfl

theorem bounds_step (f : Fifo) (op : SendQueue.Op) : (f.step op).2.bounds = f.bounds := by
  cases op with
  | reserve => exact bounds_reserve f
  | peek r => rfl
  | fill r buffer => exact bounds_replace ..
  | write r offset piece =>
    simp only [step]
    split
    · exact bounds_replace ..
    · rfl
  | commit r length => exact bounds_replace ..
  | abandon r => exact bounds_replace ..
  | hold => exact bounds_hold f
  | unhold => exact bounds_unhold f

theorem bounds_run (f : Fifo) (ops : List SendQueue.Op) :
    (SendQueue.run step f ops).2.bounds = f.bounds := by
  induction ops generalizing f with
  | nil => rfl
  | cons op ops ih =>
    rw [← bounds_step f op]
    exact ih _

/-! ## Reservations do not disturb each other -/

/-- An unreleased reservation by its number. -/
def reservation? (f : Fifo) (r : Nat) : Option Reservation :=
  if f.first ≤ r then f.live[r - f.first]? else none

theorem reservation?_reserve {f : Fifo} {r : Nat} {x : Reservation}
    (h : f.reservation? r = some x) : f.reserve.2.reservation? r = some x := by
  unfold reserve
  split
  · exact h
  · unfold reservation? at h ⊢
    split at h
    · rename_i hr
      rw [if_pos hr, List.getElem?_append_left (List.getElem?_eq_some_iff.1 h).1]
      exact h
    · cases h

/-- Only an open reservation can be replaced. -/
theorem reservation?_replace {f : Fifo} {r r' : Nat} {x : Reservation}
    (h : f.reservation? r = some x) (hne : r' = r → x.stage ≠ .writing)
    (next : Bytes → Reservation) : (f.replace r' next).reservation? r = some x := by
  cases hb : f.buffer? r' with
  | none => rwa [replace_of_closed hb]
  | some buffer =>
    obtain ⟨hr', hget⟩ := buffer?_eq_some_iff.1 hb
    rw [replace_of_buffer? hb]
    unfold reservation? at h ⊢
    split at h
    · rename_i hr
      have hrr : r' ≠ r := by
        rintro rfl
        rw [hget] at h
        cases h
        exact hne rfl rfl
      simp only [hr, ↓reduceIte]
      rw [List.getElem?_set_ne (by omega)]
      exact h
    · cases h

theorem reservation?_commit {f : Fifo} {r : Nat} {buffer : Bytes} (h : f.buffer? r = some buffer)
    (length : Nat) : (f.commit r length).reservation? r =
      some ⟨.committed (buffer.take (Nat.min length f.slotCapacity)), buffer⟩ := by
  obtain ⟨hr, hget⟩ := buffer?_eq_some_iff.1 h
  have hk := (List.getElem?_eq_some_iff.1 hget).1
  rw [commit, replace_of_buffer? h, reservation?, if_pos hr, List.getElem?_set_self hk]

theorem reservation?_release {f : Fifo} {r : Nat} {x : Reservation}
    (h : f.reservation? r = some x) :
    r < f.release.first ∨ f.release.reservation? r = some x := by
  unfold reservation? at h
  split at h
  · rename_i hr
    unfold release
    cases hl : f.live with
    | nil => simp [hl] at h
    | cons y live =>
      simp only
      by_cases hlt : r < f.first + 1
      · exact Or.inl hlt
      · right
        rw [hl, show r - f.first = r - (f.first + 1) + 1 by omega, List.getElem?_cons_succ] at h
        rw [reservation?, if_pos (by simp only; omega)]
        exact h
  · cases h

theorem reservation?_skip {f : Fifo} {r : Nat} {x : Reservation}
    (h : f.reservation? r = some x) : r < f.skip.first ∨ f.skip.reservation? r = some x := by
  unfold reservation? at h
  split at h
  · rename_i hr
    by_cases hlt : r < f.skip.first
    · exact Or.inl hlt
    · right
      rw [reservation?, if_pos (Nat.le_of_not_lt hlt)]
      simp only [skip, Nat.not_lt] at hlt ⊢
      rw [← List.takeWhile_append_dropWhile (p := Reservation.isAbandoned) (l := f.live),
        List.getElem?_append_right (by omega)] at h
      rw [← h]
      congr 1
      omega
  · cases h

/-- A reservation stays as it is until it is released, whatever happens to
others and, once it is no longer open, whatever happens at all. -/
theorem reservation?_step {f : Fifo} {r : Nat} {x : Reservation}
    (h : f.reservation? r = some x) (op : SendQueue.Op)
    (ht : op.target? = some r → x.stage ≠ .writing) :
    r < (f.step op).2.first ∨ (f.step op).2.reservation? r = some x := by
  cases op with
  | reserve => exact Or.inr (reservation?_reserve h)
  | peek r' => exact Or.inr h
  | fill r' buffer => exact Or.inr (reservation?_replace h (fun e => ht (congrArg some e)) _)
  | write r' offset piece =>
    right
    simp only [step]
    split
    · exact reservation?_replace h (fun e => ht (congrArg some e)) _
    · exact h
  | commit r' length => exact Or.inr (reservation?_replace h (fun e => ht (congrArg some e)) _)
  | abandon r' => exact Or.inr (reservation?_replace h (fun e => ht (congrArg some e)) _)
  | hold =>
    change r < f.hold.2.first ∨ f.hold.2.reservation? r = some x
    unfold hold
    split
    · exact Or.inr h
    · split <;> exact reservation?_skip h
  | unhold =>
    change r < f.unhold.first ∨ f.unhold.reservation? r = some x
    unfold unhold
    split
    · exact reservation?_release h
    · exact Or.inr h

end Fifo

end PresenceLink
