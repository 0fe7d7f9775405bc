import PresenceLink.Proofs.SendQueue.Refinement

/-!
# A queue between whole messages

A queue is idle when no reservation is open and no message is held. A producer
that fills and commits what it reserved, or gives it up, leaves the queue idle,
and so does a consumer that releases what it took. On an idle queue messages
are added behind and taken from the front, whatever slots they have.

* `WellFormed.commit_newest`, `WellFormed.abandon_newest`: what a producer leaves,
  whatever else goes on;
* `Idle.append`: a whole message is added, or none;
* `Idle.drain`: the oldest message is taken; if there is none, nothing is
  pending.
-/

namespace PresenceLink

namespace Fifo

/-- The messages that are committed, oldest first. -/
def messages (f : Fifo) : List Bytes := f.live.filterMap Reservation.message?

/-- No reservation is open and no message is held. -/
structure Idle (f : Fifo) : Prop where
  held : f.held = false
  closed : ∀ x ∈ f.live, x.stage ≠ .writing

theorem reserve_eq_some {f f' : Fifo} {r : Nat} (h : f.reserve = (some r, f')) :
    ∃ buffer, f.free = buffer :: f'.free ∧ r = f.first + f.live.length ∧
      f' = { f with live := f.live ++ [⟨.writing, buffer⟩], free := f'.free } := by
  unfold reserve at h
  split at h
  · cases h
  · rename_i buffer free hf
    simp only [Prod.mk.injEq, Option.some.injEq] at h
    obtain ⟨rfl, rfl⟩ := h
    exact ⟨buffer, hf, rfl, rfl⟩

/-- The newest reservation is behind all others. -/
theorem buffer?_newest {f : Fifo} {older : List Reservation} {buffer : Bytes}
    (h : f.live = older ++ [⟨.writing, buffer⟩]) :
    f.buffer? (f.first + older.length) = some buffer := by
  rw [buffer?_eq_some_iff]
  refine ⟨Nat.le_add_right .., ?_⟩
  rw [Nat.add_sub_cancel_left, h, List.getElem?_append_right (Nat.le_refl _)]
  simp

theorem replace_newest {f : Fifo} {older : List Reservation} {buffer : Bytes}
    (h : f.live = older ++ [⟨.writing, buffer⟩]) (next : Bytes → Reservation) :
    f.replace (f.first + older.length) next = { f with live := older ++ [next buffer] } := by
  rw [replace_of_buffer? (buffer?_newest h), Nat.add_sub_cancel_left, h,
    List.set_append_right _ _ (Nat.le_refl _)]
  simp

/-- Fill the newest reservation and close it. -/
theorem replace_fill {f f' : Fifo} {r : Nat} (h : f.reserve = (some r, f')) {buffer : Bytes}
    (hb : ∀ old ∈ f.free, buffer.length = old.length) (next : Bytes → Reservation) :
    (f'.fill r buffer).replace r next =
      { f with live := f.live ++ [next buffer], free := f'.free } := by
  obtain ⟨old, hfree, rfl, hf'⟩ := reserve_eq_some h
  have hlen : buffer.length = old.length := hb old (by rw [hfree]; exact List.mem_cons_self)
  rw [hf', fill,
    replace_newest (f := { f with live := f.live ++ [⟨.writing, old⟩], free := f'.free }) rfl]
  simp only [hlen, ↓reduceIte]
  exact replace_newest
    (f := { f with live := f.live ++ [⟨.writing, buffer⟩], free := f'.free }) rfl next

theorem slotCapacity_fill (f : Fifo) (r : Nat) (buffer : Bytes) :
    (f.fill r buffer).slotCapacity = f.slotCapacity := by
  unfold fill replace
  split <;> rfl

/-- Close the newest reservation. -/
theorem Idle.append {f : Fifo} (h : f.Idle) {x : Reservation} (hx : x.stage ≠ .writing)
    (free : List Bytes) : { f with live := f.live ++ [x], free }.Idle := by
  refine ⟨h.held, ?_⟩
  intro y hy
  rw [List.mem_append, List.mem_singleton] at hy
  rcases hy with hy | rfl
  · exact h.closed y hy
  · exact hx

/-- On an idle queue a reservation that is not abandoned has a message. -/
theorem Idle.skip {f : Fifo} (h : f.Idle) :
    f.skip.Idle ∧ f.skip.messages = f.messages ∧
      f.skip.first + f.skip.live.length = f.first + f.live.length ∧
      ∀ x ∈ f.skip.live.head?, ∃ message, x.stage = .committed message := by
  have hsplit := List.takeWhile_append_dropWhile (p := Reservation.isAbandoned) (l := f.live)
  have hkept : ∀ x ∈ f.live.dropWhile Reservation.isAbandoned, x.stage ≠ .writing := by
    intro x hx
    exact h.closed x (by rw [← hsplit]; exact List.mem_append_right _ hx)
  refine ⟨⟨h.held, hkept⟩, ?_, ?_, ?_⟩
  · have hgone : (f.live.takeWhile Reservation.isAbandoned).filterMap
        Reservation.message? = [] := by
      rw [List.filterMap_eq_nil_iff]
      intro x hx
      have hx' := List.all_eq_true.1 List.all_takeWhile x hx
      simp only [Reservation.isAbandoned, decide_eq_true_eq] at hx'
      rw [Reservation.message?, hx']
    have hm := congrArg (List.filterMap Reservation.message?) hsplit
    rw [List.filterMap_append, hgone, List.nil_append] at hm
    exact hm
  · have hlen := congrArg List.length hsplit
    rw [List.length_append] at hlen
    simp only [Fifo.skip]
    omega
  · intro x hx
    have hne := List.head?_dropWhile_not Reservation.isAbandoned f.live
    change (f.live.dropWhile Reservation.isAbandoned).head? = some x at hx
    rw [hx] at hne
    have hw := hkept x (List.mem_of_mem_head? hx)
    cases hs : x.stage with
    | writing => exact absurd hs hw
    | committed message => exact ⟨message, rfl⟩
    | abandoned => simp [Reservation.isAbandoned, hs] at hne

/-- Taking a message and releasing it leaves the later ones; if there is none
to take, no reservation is left. -/
theorem Idle.hold_unhold {f : Fifo} (h : f.Idle) :
    f.hold.2.unhold.Idle ∧ f.hold.1 = f.messages.head? ∧
      f.hold.2.unhold.messages = f.messages.tail ∧
      f.hold.2.unhold.first + f.hold.2.unhold.live.length = f.first + f.live.length ∧
      (f.hold.1 = none → f.hold.2.held = false ∧ f.hold.2.live = []) := by
  obtain ⟨hidle, hmessages, hcount, hhead⟩ := h.skip
  rw [← hmessages, ← hcount, hold, h.held]
  simp only [Bool.false_eq_true, ↓reduceIte]
  cases hl : f.skip.live with
  | nil =>
    have hm : f.skip.messages = [] := by rw [messages, hl]; rfl
    simp only [List.head?_nil, Option.bind_none, unhold, hidle.held, Bool.false_eq_true,
      ↓reduceIte, hm, List.tail_nil, hl, and_self, implies_true, and_true]
    exact hidle
  | cons x rest =>
    obtain ⟨message, hx⟩ := hhead x (by rw [hl]; rfl)
    have hx : x.message? = some message := by rw [Reservation.message?, hx]
    have hm : f.skip.messages = message :: rest.filterMap Reservation.message? := by
      rw [messages, hl, List.filterMap_cons, hx]
    simp only [List.head?_cons, Option.bind_some, hx, unhold, ↓reduceIte, release, hm,
      List.tail_cons, List.length_cons, reduceCtorEq, false_implies, and_true]
    refine ⟨⟨rfl, ?_⟩, trivial, rfl, ?_⟩
    · intro y hy
      exact hidle.closed y (by rw [hl]; exact List.mem_cons_of_mem _ hy)
    · omega

end Fifo

namespace SendQueue

/-- The committed messages that wait, oldest first. -/
def messages (q : SendQueue) : List Bytes := q.toFifo.messages

/-- A queue between whole messages. -/
structure Idle (q : SendQueue) : Prop where
  wellFormed : q.WellFormed
  fifo : q.toFifo.Idle

theorem WellFormed.nextAdd_toFifo {q : SendQueue} (h : q.WellFormed) :
    q.nextAdd = q.toFifo.first + q.toFifo.live.length := by
  rw [h.nextAdd_eq, ← h.length_taken]
  simp [toFifo]

theorem idle_ofSize (slots slotCapacity : Nat) : (ofSize slots slotCapacity).Idle := by
  refine ⟨wellFormed_ofSize .., ?_⟩
  rw [toFifo_ofSize]
  exact ⟨rfl, by simp [Fifo.ofSize]⟩

theorem messages_ofSize (slots slotCapacity : Nat) : (ofSize slots slotCapacity).messages = [] := by
  rw [messages, toFifo_ofSize]
  rfl

/-- A new reservation has the first of the free buffers. -/
theorem WellFormed.buffer?_reserve {q q' : SendQueue} {r : Nat} (h : q.WellFormed)
    (hr : q.reserve = some (r, q')) :
    ∃ buffer, q.toFifo.free = buffer :: q'.toFifo.free ∧ q'.buffer? r = some buffer := by
  obtain ⟨buffer, hfree, hnum, hf'⟩ := Fifo.reserve_eq_some (toFifo_reserve h hr)
  refine ⟨buffer, hfree, ?_⟩
  rw [← toFifo_buffer? (h.reserve hr), hnum, hf']
  exact Fifo.buffer?_newest rfl

theorem WellFormed.size_free {q : SendQueue} (h : q.WellFormed) :
    ∀ buffer ∈ q.toFifo.free, buffer.length = q.slotCapacity := by
  intro buffer hbuffer
  simp only [toFifo, List.mem_map] at hbuffer
  obtain ⟨s, hs, rfl⟩ := hbuffer
  exact h.size s (List.mem_of_mem_drop hs)

/-- A new reservation that is filled and committed is behind all others. -/
theorem WellFormed.commit_newest {q q' : SendQueue} {r : Nat} (h : q.WellFormed)
    (hr : q.reserve = some (r, q')) {buffer : Bytes} (hb : buffer.length = q.slotCapacity) {n : Nat}
    (hn : n ≤ q.slotCapacity) :
    ((q'.fill r buffer).commit r n).WellFormed ∧ ((q'.fill r buffer).commit r n).toFifo =
      { q.toFifo with
        live := q.toFifo.live ++ [⟨.committed (buffer.take n), buffer⟩], free := q'.toFifo.free } := by
  have hwf := h.reserve hr
  have hcap : q'.toFifo.slotCapacity = q.slotCapacity := (reserve_frame hr).2.1
  have hmin : Nat.min n q.slotCapacity = n := Nat.min_eq_left hn
  have hview := toFifo_commit (hwf.fill r buffer) r n
  rw [toFifo_fill hwf, Fifo.commit, Fifo.slotCapacity_fill, hcap, hmin,
    Fifo.replace_fill (toFifo_reserve h hr) fun old hold => hb.trans (h.size_free old hold).symm] at hview
  exact ⟨(hwf.fill r buffer).commit r n, hview⟩

/-- A new reservation that is given up is behind all others. -/
theorem WellFormed.abandon_newest {q q' : SendQueue} {r : Nat} (h : q.WellFormed)
    (hr : q.reserve = some (r, q')) {buffer : Bytes} (hb : buffer.length = q.slotCapacity) :
    ((q'.fill r buffer).abandon r).WellFormed ∧ ((q'.fill r buffer).abandon r).toFifo =
      { q.toFifo with
        live := q.toFifo.live ++ [⟨.abandoned, buffer⟩], free := q'.toFifo.free } := by
  have hwf := h.reserve hr
  have hview := toFifo_abandon (hwf.fill r buffer) r
  rw [toFifo_fill hwf, Fifo.abandon,
    Fifo.replace_fill (toFifo_reserve h hr) fun old hold => hb.trans (h.size_free old hold).symm] at hview
  exact ⟨(hwf.fill r buffer).abandon r, hview⟩

/-- One more reservation that is no longer open. -/
theorem Idle.append {q q' : SendQueue} (h : q.Idle) (hwf : q'.WellFormed) {x : Reservation}
    (hx : x.stage ≠ .writing) {free : List Bytes}
    (hview : q'.toFifo = { q.toFifo with live := q.toFifo.live ++ [x], free }) :
    q'.Idle ∧ q'.messages = q.messages ++ x.message?.toList ∧ q'.nextAdd = q.nextAdd + 1 := by
  refine ⟨⟨hwf, ?_⟩, ?_, ?_⟩
  · rw [hview]
    exact h.fifo.append hx _
  · rw [messages, hview, messages, Fifo.messages, Fifo.messages, List.filterMap_append]
    cases hm : x.message? <;> simp [hm]
  · rw [hwf.nextAdd_toFifo, hview, h.wellFormed.nextAdd_toFifo]
    simp [Nat.add_assoc]

/-- Take the oldest message, if there is one. -/
theorem Idle.drain {q : SendQueue} (h : q.Idle) :
    q.drain.2.Idle ∧ q.drain.1 = q.messages.head? ∧ q.drain.2.messages = q.messages.tail ∧
      q.drain.2.nextAdd = q.nextAdd ∧ (q.drain.1 = none → q.drain.2.pending = 0) := by
  obtain ⟨hwf, hhold⟩ := hold_toFifo h.wellFormed
  obtain ⟨hwf', hunhold⟩ := unhold_toFifo hwf
  obtain ⟨hidle, hhead, htail, hcount, hnone⟩ := h.fifo.hold_unhold
  rw [hhold] at hidle hhead htail hcount hnone
  simp only at hidle hhead htail hcount hnone
  have hdrain : q.drain = (q.hold.1, q.hold.2.unhold) := by
    unfold SendQueue.drain
    cases hq : q.hold with
    | mk message q' =>
      cases message with
      | some message => rfl
      | none =>
        rw [hq] at hnone
        have hd : q'.draining = false := (hnone rfl).1
        simp [unhold, hd]
  rw [hdrain]
  simp only
  rw [hunhold] at hidle htail hcount
  refine ⟨⟨hwf', hidle⟩, hhead, htail, ?_, ?_⟩
  · rw [hwf'.nextAdd_toFifo, hcount, h.wellFormed.nextAdd_toFifo]
  · intro hn
    obtain ⟨hheld, hlive⟩ := hnone hn
    have hd : q.hold.2.draining = false := hheld
    have ht : q.hold.2.taken = [] := by simpa [toFifo] using hlive
    rw [unhold, if_neg (by simp [hd]), hwf.pending_eq, ht]
    rfl

end SendQueue

end PresenceLink
