import PresenceLink.Proofs.SendQueue.Refinement

/-!
# The messages that can be taken now

A consumer that takes one message after the other gets those in front of the
oldest open reservation, and none while a message is held. Producers may be
halfway through theirs and other consumers may hold one.

* `ready_of_drain`: taking a message takes the first of these, on any
  well-formed queue;
* `slotCapacity_drain`: the slots keep their size.
-/

namespace PresenceLink

/-- The messages in front of the first open reservation. -/
def Reservation.ready : List Reservation → List Bytes
  | [] => []
  | x :: live =>
    match x.stage with
    | .writing => []
    | .committed message => message :: ready live
    | .abandoned => ready live

namespace Fifo

/-- The messages that can be taken now, oldest first. -/
def ready (f : Fifo) : List Bytes := if f.held then [] else Reservation.ready f.live

theorem ready_of_held {f : Fifo} (h : f.held = true) : f.ready = [] := by
  rw [ready, if_pos h]

theorem ready_of_free {f : Fifo} (h : f.held = false) :
    f.ready = Reservation.ready f.live := by
  rw [ready, h]
  rfl

/-- Abandoned reservations do not count. -/
theorem ready_dropWhile (live : List Reservation) :
    Reservation.ready (live.dropWhile Reservation.isAbandoned) = Reservation.ready live := by
  induction live with
  | nil => rfl
  | cons x live ih =>
    obtain ⟨stage, buffer⟩ := x
    cases stage with
    | writing => rfl
    | committed message => rfl
    | abandoned => exact ih

/-- Taking a message and releasing it leaves the later ones. -/
theorem hold_unhold_ready (f : Fifo) :
    f.hold.1 = f.ready.head? ∧
      (if f.hold.1.isSome then f.hold.2.unhold else f.hold.2).ready = f.ready.tail := by
  cases hheld : f.held with
  | true =>
    have hhold : f.hold = (none, f) := by rw [hold, if_pos hheld]
    rw [hhold, ready_of_held hheld]
    exact ⟨rfl, ready_of_held hheld⟩
  | false =>
    have hfree : f.ready = Reservation.ready f.skip.live := by
      rw [ready_of_free hheld]
      exact (ready_dropWhile f.live).symm
    have hskip : f.skip.held = false := hheld
    have hhead := List.head?_dropWhile_not Reservation.isAbandoned f.live
    have hsame : f.live.dropWhile Reservation.isAbandoned = f.skip.live := rfl
    rw [hsame] at hhead
    rw [hold, hheld, hfree]
    cases hl : f.skip.live with
    | nil => exact ⟨rfl, by simp [ready, hskip, hl, Reservation.ready]⟩
    | cons x rest =>
      rw [hl] at hhead
      obtain ⟨stage, buffer⟩ := x
      cases stage with
      | writing => exact ⟨rfl, by simp [ready, hskip, hl, Reservation.ready, Reservation.message?]⟩
      | committed message =>
        refine ⟨rfl, ?_⟩
        simp [Reservation.message?, unhold, release, hl, ready, Reservation.ready]
      | abandoned => simp [Reservation.isAbandoned] at hhead

end Fifo

namespace SendQueue

/-- The messages that can be taken now, oldest first. -/
def ready (q : SendQueue) : List Bytes := q.toFifo.ready

/-- Taking a message takes the first of those that can be taken. -/
theorem ready_of_drain {q q' : SendQueue} {message : Option Bytes} (h : q.WellFormed)
    (hd : q.drain = (message, q')) :
    q'.WellFormed ∧ q.ready = message.toList ++ q'.ready ∧ (message = none → q'.ready = []) := by
  obtain ⟨hwf, hhold⟩ := hold_toFifo h
  obtain ⟨hwf', hunhold⟩ := unhold_toFifo hwf
  obtain ⟨hhead, htail⟩ := q.toFifo.hold_unhold_ready
  rw [hhold] at hhead htail
  unfold SendQueue.drain at hd
  cases hq : q.hold with
  | mk held q'' =>
    rw [hq] at hd hwf hwf' hunhold hhead htail
    cases held with
    | none =>
      obtain ⟨rfl, rfl⟩ := Prod.mk.injEq .. ▸ hd
      have hnone : q.ready = [] := List.head?_eq_none_iff.1 hhead.symm
      have hnone' : q''.ready = [] := htail.trans (by rw [← ready, hnone]; rfl)
      exact ⟨hwf, by rw [hnone, hnone']; rfl, fun _ => hnone'⟩
    | some held =>
      obtain ⟨rfl, rfl⟩ := Prod.mk.injEq .. ▸ hd
      obtain ⟨rest, hrest⟩ := List.head?_eq_some_iff.1 hhead.symm
      have hlater : q''.unhold.ready = rest := by
        rw [ready, ← hunhold]
        exact htail.trans (congrArg List.tail hrest)
      exact ⟨hwf', hrest.trans (congrArg (held :: ·) hlater.symm), fun hn => by cases hn⟩

theorem slotCapacity_drain {q : SendQueue} (h : q.WellFormed) :
    q.drain.2.slotCapacity = q.slotCapacity := by
  obtain ⟨hwf, hhold⟩ := hold_toFifo h
  obtain ⟨-, hunhold⟩ := unhold_toFifo hwf
  have hheld : q.hold.2.slotCapacity = q.slotCapacity := by
    have hbounds := q.toFifo.bounds_hold
    rw [hhold] at hbounds
    exact congrArg Prod.snd hbounds
  have hreleased : q.hold.2.unhold.slotCapacity = q.hold.2.slotCapacity := by
    have hbounds := q.hold.2.toFifo.bounds_unhold
    rw [hunhold] at hbounds
    exact congrArg Prod.snd hbounds
  unfold SendQueue.drain
  split
  · rename_i message q' hq
    rw [hq] at hreleased hheld
    exact hreleased.trans hheld
  · rename_i q' hq
    rwa [hq] at hheld

end SendQueue

end PresenceLink
