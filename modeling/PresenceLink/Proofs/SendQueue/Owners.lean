import PresenceLink.Proofs.SendQueue.Idle

/-!
# Who owns a slot of a send queue

A producer owns the slot of a reservation until it commits the reservation or
gives it up, the consumer that of the message it has taken until it releases
it. `Owners` keeps this record from outside: it is told operations and answers
and does not look into the queue.

* `Fifo.Owned.step`: the record agrees with the open reservations and with the
  held message after any operation if it did before;
* `WellFormed.slot_cases`: every slot of a ring is that of one unreleased
  reservation, or empty;
* `Skips`: the loop that passes over abandoned reservations, without a bound
  on its turns;
* `slots_have_one_owner`: what the counts, the slots and the owners are after
  any run of operations.
-/

namespace PresenceLink

/-- What the callers of a queue have not given back. -/
structure Owners where
  /-- The reservations that were neither committed nor given up. -/
  handles : List Nat := []
  /-- The reservations whose messages were taken and not released. -/
  guards : List Nat := []
  deriving DecidableEq, Repr

namespace Owners

/-- What an operation and its answer hand out or take back. A message that is
taken is that of the `oldest` unreleased reservation. -/
def after (o : Owners) (oldest : Nat) : SendQueue.Op → SendQueue.Answer → Owners
  | .reserve, .reserved (some r) => { o with handles := r :: o.handles }
  | .commit r _, _ | .abandon r, _ => { o with handles := o.handles.erase r }
  | .hold, .message (some _) => { o with guards := oldest :: o.guards }
  | .unhold, _ => { o with guards := o.guards.tail }
  | _, _ => o

/-- The owners after some operations on a queue. -/
def follow (o : Owners) (q : SendQueue) : List SendQueue.Op → Owners
  | [] => o
  | op :: ops => follow (o.after (q.step op).2.nextSend op (q.step op).1) (q.step op).2 ops

end Owners

/-! ## Open reservations -/

namespace Fifo

theorem isSome_buffer?_iff {f : Fifo} {r : Nat} :
    (f.buffer? r).isSome ↔
      f.first ≤ r ∧ ∃ x, f.live[r - f.first]? = some x ∧ x.stage = .writing := by
  rw [Option.isSome_iff_exists]
  simp only [buffer?_eq_some_iff]
  constructor
  · rintro ⟨buffer, hr, hx⟩
    exact ⟨hr, _, hx, rfl⟩
  · rintro ⟨hr, ⟨stage, buffer⟩, hx, rfl⟩
    exact ⟨buffer, hr, hx⟩

theorem lt_of_isSome_buffer? {f : Fifo} {r : Nat} (h : (f.buffer? r).isSome) :
    r < f.first + f.live.length := by
  obtain ⟨hr, x, hx, -⟩ := isSome_buffer?_iff.1 h
  have := (List.getElem?_eq_some_iff.1 hx).1
  omega

theorem isSome_buffer?_reserve {f f' : Fifo} {n : Nat} (h : f.reserve = (some n, f')) (r : Nat) :
    (f'.buffer? r).isSome ↔ r = n ∨ (f.buffer? r).isSome := by
  obtain ⟨buffer, -, rfl, hf'⟩ := reserve_eq_some h
  rw [hf']
  by_cases hr : r = f.first + f.live.length
  · simp [hr, isSome_buffer?_iff]
  · simp only [isSome_buffer?_iff, hr, false_or]
    apply and_congr_right
    intro hle
    by_cases hlt : r - f.first < f.live.length
    · rw [List.getElem?_append_left hlt]
    · rw [List.getElem?_eq_none (by simp; omega), List.getElem?_eq_none (by omega)]

theorem isSome_buffer?_replace (f : Fifo) (n : Nat) (next : Bytes → Reservation) (r : Nat) :
    ((f.replace n next).buffer? r).isSome ↔
      ∃ buffer, f.buffer? r = some buffer ∧ (n = r → (next buffer).stage = .writing) := by
  cases hb : f.buffer? n with
  | none =>
    rw [replace_of_closed hb, Option.isSome_iff_exists]
    refine exists_congr fun buffer => ?_
    constructor
    · intro h
      refine ⟨h, ?_⟩
      rintro rfl
      rw [hb] at h
      cases h
    · exact And.left
  | some old =>
    obtain ⟨hn, hget⟩ := buffer?_eq_some_iff.1 hb
    have hk := (List.getElem?_eq_some_iff.1 hget).1
    rw [replace_of_buffer? hb, isSome_buffer?_iff]
    by_cases hr : n = r
    · subst hr
      simp [hn, hk, hb]
    · simp only [hr, false_implies, and_true, ← Option.isSome_iff_exists, isSome_buffer?_iff]
      apply and_congr_right
      intro hle
      rw [List.getElem?_set_ne (by omega)]

theorem held_replace (f : Fifo) (n : Nat) (next : Bytes → Reservation) :
    (f.replace n next).held = f.held ∧ (f.replace n next).first = f.first := by
  unfold replace
  split <;> exact ⟨rfl, rfl⟩

/-- Releasing a reservation that is not open closes no other. -/
theorem buffer?_release {f : Fifo} {x : Reservation} {live : List Reservation}
    (h : f.live = x :: live) (hx : x.stage ≠ .writing) (r : Nat) :
    f.release.buffer? r = f.buffer? r := by
  apply Option.ext
  intro buffer
  rw [buffer?_eq_some_iff, buffer?_eq_some_iff, release, h]
  simp only
  by_cases hr : f.first + 1 ≤ r
  · rw [show r - f.first = r - (f.first + 1) + 1 by omega, List.getElem?_cons_succ]
    simp [hr, show f.first ≤ r by omega]
  · constructor
    · rintro ⟨hle, -⟩
      exact absurd hle hr
    · rintro ⟨hle, hget⟩
      rw [show r - f.first = 0 by omega, List.getElem?_cons_zero, Option.some.injEq] at hget
      rw [hget] at hx
      exact absurd rfl hx

theorem buffer?_skip (f : Fifo) (r : Nat) : f.skip.buffer? r = f.buffer? r := by
  -- Along the reservations that are passed over; the number `r` stays, the first one moves.
  induction hl : f.live generalizing f with
  | nil =>
    rw [skip_of_kept]
    simp [hl]
  | cons x live ih =>
    cases hx : x.isAbandoned with
    | true =>
      have hstage : x.stage ≠ .writing := by
        intro hw
        simp [Reservation.isAbandoned, hw] at hx
      rw [skip_of_abandoned hl hx, ih f.release (by rw [release, hl]), buffer?_release hl hstage]
    | false =>
      rw [skip_of_kept]
      simp [hl, hx]

/-- The record of the owners agrees with the queue. -/
structure Owned (f : Fifo) (o : Owners) : Prop where
  nodup : o.handles.Nodup
  mem_handles : ∀ r, r ∈ o.handles ↔ (f.buffer? r).isSome
  guards : o.guards = if f.held then [f.first] else []

theorem Owned.reserve {f f' : Fifo} {o : Owners} {r : Nat} (h : f.Owned o)
    (hr : f.reserve = (some r, f')) : f'.Owned { o with handles := r :: o.handles } where
  nodup := by
    obtain ⟨-, -, rfl, -⟩ := reserve_eq_some hr
    rw [List.nodup_cons, h.mem_handles]
    refine ⟨?_, h.nodup⟩
    intro hopen
    exact Nat.lt_irrefl _ (lt_of_isSome_buffer? hopen)
  mem_handles r' := by rw [List.mem_cons, isSome_buffer?_reserve hr, h.mem_handles]
  guards := by
    obtain ⟨buffer, -, -, hf⟩ := reserve_eq_some hr
    rw [hf]
    exact h.guards

theorem Owned.refill {f : Fifo} {o : Owners} (h : f.Owned o) (r : Nat)
    {next : Bytes → Reservation} (hw : ∀ buffer, (next buffer).stage = .writing) :
    (f.replace r next).Owned o where
  nodup := h.nodup
  mem_handles r' := by
    rw [isSome_buffer?_replace, h.mem_handles, Option.isSome_iff_exists]
    simp [hw]
  guards := by
    obtain ⟨hheld, hfirst⟩ := held_replace f r next
    rw [hheld, hfirst]
    exact h.guards

theorem Owned.close {f : Fifo} {o : Owners} (h : f.Owned o) (r : Nat)
    {next : Bytes → Reservation} (hw : ∀ buffer, (next buffer).stage ≠ .writing) :
    (f.replace r next).Owned { o with handles := o.handles.erase r } where
  nodup := h.nodup.erase r
  mem_handles r' := by
    rw [isSome_buffer?_replace, h.nodup.mem_erase_iff, h.mem_handles, Option.isSome_iff_exists]
    simp [hw, eq_comm, and_comm]
  guards := by
    obtain ⟨hheld, hfirst⟩ := held_replace f r next
    rw [hheld, hfirst]
    exact h.guards

theorem Owned.hold {f : Fifo} {o : Owners} (h : f.Owned o) :
    f.hold.2.Owned (o.after f.hold.2.first .hold (.message f.hold.1)) := by
  have hskip : ∀ r, r ∈ o.handles ↔ (f.skip.buffer? r).isSome := by
    intro r
    rw [buffer?_skip, h.mem_handles]
  unfold Fifo.hold
  cases hheld : f.held with
  | true => exact h
  | false =>
    have hnone : o.guards = [] := by simp [h.guards, hheld]
    simp only [Bool.false_eq_true, ↓reduceIte]
    split
    · exact ⟨h.nodup, hskip, by simp [Owners.after, hnone]⟩
    · exact ⟨h.nodup, hskip, by simp [Owners.after, hnone, Fifo.skip, hheld]⟩

theorem Owned.unhold {f : Fifo} {o : Owners} (h : f.Owned o)
    (hfront : f.held = true → ∃ x live, f.live = x :: live ∧ x.stage ≠ .writing) :
    f.unhold.Owned { o with guards := o.guards.tail } := by
  unfold Fifo.unhold
  cases hheld : f.held with
  | true =>
    obtain ⟨x, live, hl, hx⟩ := hfront hheld
    refine ⟨h.nodup, ?_, ?_⟩
    · intro r
      rw [h.mem_handles, ← buffer?_release hl hx]
      rfl
    · simp [h.guards, hheld]
  | false => exact ⟨h.nodup, h.mem_handles, by simp [h.guards, hheld]⟩

/-- The record agrees after an operation if it did before. A held message is
that of a closed reservation, so its release takes no handle away. -/
theorem Owned.step {f : Fifo} {o : Owners} (h : f.Owned o)
    (hfront : f.held = true → ∃ x live, f.live = x :: live ∧ x.stage ≠ .writing)
    (op : SendQueue.Op) :
    (f.step op).2.Owned (o.after (f.step op).2.first op (f.step op).1) := by
  cases op with
  | reserve =>
    cases hr : f.reserve with
    | mk answer f' =>
      simp only [Fifo.step, hr]
      cases answer with
      | some r => exact h.reserve hr
      | none =>
        have hf' : f' = f := by
          unfold Fifo.reserve at hr
          split at hr <;> cases hr
          rfl
        rw [hf']
        exact h
  | peek r => exact h
  | fill r buffer => exact h.refill r fun _ => rfl
  | write r offset piece =>
    simp only [Fifo.step]
    split
    · exact h.refill r fun _ => rfl
    · exact h
  | commit r length => exact h.close r fun _ => by simp
  | abandon r => exact h.close r fun _ => by simp
  | hold => exact h.hold
  | unhold => exact h.unhold hfront

end Fifo

namespace SendQueue

theorem owned_ofSize (slots slotCapacity : Nat) :
    (ofSize slots slotCapacity).toFifo.Owned {} where
  nodup := List.nodup_nil
  mem_handles r := by simp [toFifo_ofSize, Fifo.isSome_buffer?_iff, Fifo.ofSize]
  guards := rfl

theorem owned_step {q : SendQueue} {o : Owners} (hq : q.WellFormed) (h : q.toFifo.Owned o)
    (op : Op) :
    (q.step op).2.toFifo.Owned (o.after (q.step op).2.nextSend op (q.step op).1) := by
  have hfront : q.toFifo.held = true →
      ∃ x live, q.toFifo.live = x :: live ∧ x.stage ≠ .writing := by
    intro hheld
    obtain ⟨s, rest, ht, hs⟩ := hq.held hheld
    exact ⟨_, _, (hq.head?_of_taken ht).2, by simp [Slot.toReservation, hs]⟩
  have hstep := h.step hfront op
  rw [(step_toFifo hq op).2] at hstep
  exact hstep

theorem owned_run {q : SendQueue} {o : Owners} (hq : q.WellFormed) (h : q.toFifo.Owned o)
    (ops : List Op) : (run step q ops).2.toFifo.Owned (o.follow q ops) := by
  induction ops generalizing q o with
  | nil => exact h
  | cons op ops ih => exact ih (step_toFifo hq op).1 (owned_step hq h op)

/-! ## The counts -/

@[simp] theorem nextAdd_skipAbandoned (n : Nat) (q : SendQueue) :
    (skipAbandoned n q).nextAdd = q.nextAdd := by
  induction n generalizing q with
  | zero => rfl
  | succ n ih =>
    unfold skipAbandoned
    split
    · rw [ih, nextAdd_release]
    · rfl

theorem nextAdd_step_le (q : SendQueue) (op : Op) :
    (q.step op).2.nextAdd ≤ q.nextAdd + [op].count .reserve := by
  have hfill : ∀ r buffer, (q.fill r buffer).nextAdd = q.nextAdd := by
    intro r buffer
    unfold fill
    split <;> try split
    all_goals rfl
  cases op with
  | reserve =>
    unfold step
    cases hr : q.reserve with
    | none => exact Nat.le_add_right ..
    | some p => exact Nat.le_of_eq (reserve_frame hr).2.2.1
  | peek r => exact Nat.le_refl _
  | fill r buffer => exact Nat.le_of_eq (hfill r buffer)
  | write r offset piece =>
    simp only [step, write]
    cases q.buffer? r with
    | none => exact Nat.le_refl _
    | some old => exact Nat.le_of_eq (hfill r _)
  | commit r length =>
    simp only [step, commit]
    split <;> exact Nat.le_refl _
  | abandon r =>
    simp only [step, abandon]
    split <;> exact Nat.le_refl _
  | hold =>
    simp only [step, hold]
    split
    · exact Nat.le_refl _
    · split <;> exact Nat.le_of_eq (nextAdd_skipAbandoned _ q)
  | unhold =>
    simp only [step, unhold]
    split
    · exact Nat.le_of_eq (nextAdd_release q)
    · exact Nat.le_refl _

/-- There are no more reservations than requests for one. -/
theorem nextAdd_run_le (q : SendQueue) (ops : List Op) :
    (run step q ops).2.nextAdd ≤ q.nextAdd + ops.count .reserve := by
  induction ops generalizing q with
  | nil => exact Nat.le_refl _
  | cons op ops ih =>
    have hcount : (op :: ops).count .reserve = [op].count .reserve + ops.count .reserve := by
      show ([op] ++ ops).count .reserve = _
      exact List.count_append
    calc (run step q (op :: ops)).2.nextAdd
        ≤ (q.step op).2.nextAdd + ops.count .reserve := ih _
      _ ≤ q.nextAdd + [op].count .reserve + ops.count .reserve :=
        Nat.add_le_add_right (nextAdd_step_le q op) _
      _ = q.nextAdd + (op :: ops).count .reserve := by rw [hcount, Nat.add_assoc]

theorem slots_length_run {q : SendQueue} (h : q.WellFormed) (ops : List Op) :
    (run step q ops).2.slots.length = q.slots.length := by
  have hbounds := Fifo.bounds_run q.toFifo ops
  rw [(run_toFifo h ops).2, bounds_toFifo, bounds_toFifo] at hbounds
  exact congrArg Prod.fst hbounds

/-! ## The slots -/

/-- Counting on from any reservation reaches every slot within a round. -/
theorem exists_add_mod_eq {n i : Nat} (hi : i < n) (a : Nat) : ∃ k < n, (a + k) % n = i := by
  have ha : a % n < n := Nat.mod_lt _ (by omega)
  by_cases hle : a % n ≤ i
  · refine ⟨i - a % n, by omega, ?_⟩
    rw [← Nat.mod_add_mod, Nat.add_sub_cancel' hle, Nat.mod_eq_of_lt hi]
  · refine ⟨n + i - a % n, by omega, ?_⟩
    rw [← Nat.mod_add_mod, Nat.add_sub_cancel' (by omega), Nat.add_mod_left, Nat.mod_eq_of_lt hi]

/-- A slot is that of one unreleased reservation, or it is empty. -/
theorem WellFormed.slot_cases {q : SendQueue} (h : q.WellFormed) {i : Nat} {s : Slot}
    (hs : q.slots[i]? = some s) :
    (∃ r, q.nextSend ≤ r ∧ r % q.slots.length = i ∧ q.taken[r - q.nextSend]? = some s) ∨
      (s.state = .empty ∧ ∀ r, q.nextSend ≤ r → r < q.nextAdd → r % q.slots.length ≠ i) := by
  obtain ⟨k, hk, hmod⟩ := exists_add_mod_eq (List.getElem?_eq_some_iff.1 hs).1 q.nextSend
  have hring : q.ring[k]? = some s := by rw [← slotOf_add q hk, slotOf, hmod, hs]
  by_cases hocc : k < q.occupied
  · left
    refine ⟨q.nextSend + k, Nat.le_add_right .., hmod, ?_⟩
    rw [Nat.add_sub_cancel_left, taken, List.getElem?_take_of_lt hocc, hring]
  · right
    have hspare : q.spare[k - q.occupied]? = some s := by
      rw [spare, List.getElem?_drop, Nat.add_sub_cancel' (by omega), hring]
    refine ⟨h.spare_eq s (List.mem_of_getElem? hspare), ?_⟩
    intro r hr hlt hri
    have hadd := h.nextAdd_eq
    have hle := h.occupied_le
    -- A reservation with this slot would be the one that is out of the window.
    have heq : r = q.nextSend + k :=
      eq_of_mod_eq (a := q.nextSend) (by omega) (by omega) (hri.trans hmod.symm)
    omega

/-- What is pending, counted in the slots as they lie. -/
theorem WellFormed.pending_eq_countP {q : SendQueue} (h : q.WellFormed) :
    q.pending = q.slots.countP fun s => s.state = .ready ∨ s.state = .abandoned := by
  have htaken : ∀ s ∈ q.taken, s.state ≠ .writing ↔ s.state = .ready ∨ s.state = .abandoned := by
    intro s hs
    have hne := h.taken_ne s hs
    cases hstate : s.state <;> simp_all
  have hspare : q.spare.countP (fun s => s.state = .ready ∨ s.state = .abandoned) = 0 := by
    rw [List.countP_eq_zero]
    intro s hs
    simp [h.spare_eq s hs]
  calc q.pending
      = q.taken.countP (fun s => s.state ≠ .writing) := h.pending_eq
    _ = q.taken.countP (fun s => s.state = .ready ∨ s.state = .abandoned) :=
      List.countP_congr (by simpa using htaken)
    _ = q.slots.countP (fun s => s.state = .ready ∨ s.state = .abandoned) := by
      rw [countP_slots, hspare, Nat.add_zero]

theorem slotOf_of_writing? {q : SendQueue} {r : Nat} {s : Slot} (h : q.writing? r = some s) :
    (q.nextSend ≤ r ∧ r < q.nextAdd) ∧ q.slotOf r = some s ∧ s.state = .writing := by
  unfold writing? at h
  split at h
  · rename_i hr
    rw [Option.filter_eq_some_iff, decide_eq_true_eq] at h
    exact ⟨hr, h⟩
  · cases h

/-- The slot that is reserved next is empty. -/
theorem WellFormed.slotOf_reserve {q q' : SendQueue} {r : Nat} (h : q.WellFormed)
    (hr : q.reserve = some (r, q')) : ∃ s, q.slotOf r = some s ∧ s.state = .empty := by
  obtain ⟨rfl, s, rest, hs, -, -⟩ := h.parts_reserve hr
  have hpos : 0 < q.spare.length := by simp [hs]
  rw [length_spare] at hpos
  refine ⟨s, ?_, h.spare_eq s (by simp [hs])⟩
  rw [slotOf_add q (by omega), ← Nat.add_zero q.occupied, ← List.getElem?_drop, ← spare, hs]
  rfl

/-- The message that is held is in the oldest slot. -/
theorem slotOf_guard {q : SendQueue} {o : Owners} (hq : q.WellFormed) (h : q.toFifo.Owned o)
    {r : Nat} (hr : r ∈ o.guards) : ∃ s, q.slotOf r = some s ∧ s.state = .ready := by
  rw [h.guards, List.mem_ite_nil_right, List.mem_singleton] at hr
  obtain ⟨hd, rfl⟩ := hr
  obtain ⟨s, rest, ht, hs⟩ := hq.held hd
  exact ⟨s, (hq.head?_of_taken ht).1, hs⟩

theorem mem_handles_iff {q : SendQueue} {o : Owners} (hq : q.WellFormed) (h : q.toFifo.Owned o)
    {r : Nat} : r ∈ o.handles ↔ ∃ s, q.writing? r = some s := by
  rw [h.mem_handles, toFifo_buffer? hq, buffer?, Option.isSome_map, Option.isSome_iff_exists]

/-- Non-empty slots are those of the unreleased reservations. -/
theorem WellFormed.ne_empty_iff {q : SendQueue} (h : q.WellFormed) {i : Nat} {s : Slot}
    (hs : q.slots[i]? = some s) : s.state ≠ .empty ↔
      ∃ r, q.nextSend ≤ r ∧ r < q.nextAdd ∧ r % q.slots.length = i := by
  rcases h.slot_cases hs with ⟨r, hr, hmod, hget⟩ | ⟨hempty, hno⟩
  · have hlt := (List.getElem?_eq_some_iff.1 hget).1
    rw [h.length_taken] at hlt
    have hadd := h.nextAdd_eq
    apply iff_of_true
    · exact h.taken_ne s (List.mem_of_getElem? hget)
    · exact ⟨r, hr, by omega, hmod⟩
  · apply iff_of_false
    · simp [hempty]
    · rintro ⟨r, hr, hlt, hmod⟩
      exact hno r hr hlt hmod

/-- The slots that are being written are those of the handles. -/
theorem writing_iff_handle {q : SendQueue} {o : Owners} (hq : q.WellFormed)
    (h : q.toFifo.Owned o) {i : Nat} {s : Slot} (hs : q.slots[i]? = some s) :
    s.state = .writing ↔ ∃ r ∈ o.handles, r % q.slots.length = i := by
  constructor
  · intro hw
    rcases hq.slot_cases hs with ⟨r, hr, hmod, hget⟩ | ⟨hempty, -⟩
    · exact ⟨r, (mem_handles_iff hq h).2 ⟨s, hq.writing?_eq_some_iff.2 ⟨hr, hget, hw⟩⟩, hmod⟩
    · rw [hempty] at hw
      cases hw
  · rintro ⟨r, hr, rfl⟩
    obtain ⟨s', hs'⟩ := (mem_handles_iff hq h).1 hr
    obtain ⟨-, hslot, hw⟩ := slotOf_of_writing? hs'
    rw [slotOf, hs, Option.some.injEq] at hslot
    rw [hslot]
    exact hw

/-- No two handles have the same slot. -/
theorem nodup_handle_slots {q : SendQueue} {o : Owners} (hq : q.WellFormed)
    (h : q.toFifo.Owned o) : (o.handles.map (· % q.slots.length)).Nodup := by
  have hwindow : ∀ r ∈ o.handles, q.nextSend ≤ r ∧ r < q.nextSend + q.slots.length := by
    intro r hr
    obtain ⟨s, hs⟩ := (mem_handles_iff hq h).1 hr
    have hlt := (slotOf_of_writing? hs).1
    have hadd := hq.nextAdd_eq
    have hle := hq.occupied_le
    omega
  apply h.nodup.map_on
  intro r hr r' hr' hmod
  exact eq_of_mod_eq (hwindow r hr) (hwindow r' hr') hmod

/-- What is owned is being written or committed, so it is not empty. -/
theorem slotOf_owner {q : SendQueue} {o : Owners} (hq : q.WellFormed) (h : q.toFifo.Owned o)
    {r : Nat} (hr : r ∈ o.handles ++ o.guards) :
    ∃ s, q.slotOf r = some s ∧ s.state ≠ .empty := by
  rw [List.mem_append] at hr
  rcases hr with hr | hr
  · obtain ⟨s, hs⟩ := (mem_handles_iff hq h).1 hr
    obtain ⟨-, hslot, hw⟩ := slotOf_of_writing? hs
    exact ⟨s, hslot, by simp [hw]⟩
  · obtain ⟨s, hslot, hready⟩ := slotOf_guard hq h hr
    exact ⟨s, hslot, by simp [hready]⟩

/-! ## Passing over abandoned reservations -/

/-- One turn of the loop that passes over abandoned reservations. -/
def skipOne? (q : SendQueue) : Option SendQueue :=
  if q.pending = 0 then none
  else
    match q.head? with
    | some { state := .abandoned, .. } => some q.release
    | _ => none

/-- The loop, begun on the first queue, ends with the second after some turns. -/
inductive Skips : Nat → SendQueue → SendQueue → Prop where
  | stop {q : SendQueue} (h : q.skipOne? = none) : Skips 0 q q
  | turn {n : Nat} {q q' q'' : SendQueue} (h : q.skipOne? = some q') (rest : Skips n q' q'') :
    Skips (n + 1) q q''

/-- The loop ends: every turn leaves fewer reservations pending. -/
theorem skips_skipAbandoned {n : Nat} {q : SendQueue} (hn : q.pending = n) :
    ∃ turns ≤ n, Skips turns q (skipAbandoned n q) := by
  -- The bound of the loop is what is pending, so it runs out only where the loop stops anyway.
  induction n generalizing q with
  | zero => exact ⟨0, Nat.le_refl _, .stop (by rw [skipOne?, if_pos hn])⟩
  | succ n ih =>
    unfold skipAbandoned
    split
    · rename_i hhead
      obtain ⟨turns, hle, hrest⟩ := ih (q := q.release) (by rw [pending_release]; omega)
      refine ⟨turns + 1, by omega, .turn ?_ hrest⟩
      rw [skipOne?, if_neg (by omega), hhead]
    · rename_i hhead
      refine ⟨0, Nat.zero_le _, .stop ?_⟩
      unfold skipOne?
      split
      · rfl
      · split
        · rename_i heq
          exact absurd heq (hhead _ _)
        · rfl

/-- **Every slot has at most one owner.** Whatever the operations, the counts
are those of the slots: the slots that are not empty are those of the
reservations from `nextSend` up to `nextAdd`, and what is pending are the
committed and abandoned ones. The slots that are being written are those of
the handles, one each, and a message that is held is in the oldest slot, which
is committed. So the slot that is reserved next is nobody's. The loop that
passes over abandoned reservations ends after at most as many turns as
reservations are pending. The counters go no further than the requests for a
reservation, so machine words hold them as long as they hold that number. -/
theorem slots_have_one_owner (slots slotCapacity : Nat) (ops : List Op) :
    let q := (run step (ofSize slots slotCapacity) ops).2
    let owners := ({} : Owners).follow (ofSize slots slotCapacity) ops
    let size := Nat.max slots 1
    (q.slots.length = size ∧ q.pending ≤ q.occupied ∧ q.occupied ≤ size) ∧
      (q.nextSend ≤ q.nextAdd ∧ q.occupied = q.nextAdd - q.nextSend ∧
        q.nextAdd ≤ ops.count .reserve) ∧
      q.pending = q.slots.countP (fun s => s.state = .ready ∨ s.state = .abandoned) ∧
      (∀ i s, q.slots[i]? = some s →
        (s.state ≠ .empty ↔ ∃ r, q.nextSend ≤ r ∧ r < q.nextAdd ∧ r % size = i) ∧
          (s.state = .writing ↔ ∃ r ∈ owners.handles, r % size = i)) ∧
      (owners.handles.map (· % size)).Nodup ∧
      owners.guards = (if q.draining then [q.nextSend] else []) ∧
      (∀ r ∈ owners.guards, ∃ s, q.slotOf r = some s ∧ s.state = .ready) ∧
      (∀ r q', q.reserve = some (r, q') →
        (∃ s, q.slotOf r = some s ∧ s.state = .empty) ∧
          ∀ owner ∈ owners.handles ++ owners.guards, owner % size ≠ r % size) ∧
      ∃ turns ≤ q.pending, Skips turns q (skipAbandoned q.pending q) := by
  intro q owners size
  have hstart := wellFormed_ofSize slots slotCapacity
  have hq : q.WellFormed := (run_toFifo hstart ops).1
  have ho : q.toFifo.Owned owners := owned_run hstart (owned_ofSize slots slotCapacity) ops
  have hsize : q.slots.length = size := by
    rw [slots_length_run hstart ops]
    simp [ofSize, size]
  have hadd := hq.nextAdd_eq
  have hpending : q.pending ≤ q.occupied := by
    rw [hq.pending_eq, ← hq.length_taken]
    exact List.countP_le_length
  rw [← hsize]
  refine ⟨⟨rfl, hpending, hq.occupied_le⟩, ⟨by omega, by omega, ?_⟩, hq.pending_eq_countP, ?_,
    nodup_handle_slots hq ho, ho.guards, ?_, ?_, skips_skipAbandoned rfl⟩
  · calc q.nextAdd ≤ (ofSize slots slotCapacity).nextAdd + ops.count .reserve :=
        nextAdd_run_le _ ops
      _ = ops.count .reserve := Nat.zero_add _
  · intro i s hs
    exact ⟨hq.ne_empty_iff hs, writing_iff_handle hq ho hs⟩
  · intro r hr
    exact slotOf_guard hq ho hr
  · intro r q' hr
    obtain ⟨s, hslot, hempty⟩ := hq.slotOf_reserve hr
    refine ⟨⟨s, hslot, hempty⟩, ?_⟩
    intro owner howner hmod
    obtain ⟨s', hslot', hne⟩ := slotOf_owner hq ho howner
    rw [slotOf, hmod, ← slotOf, hslot, Option.some.injEq] at hslot'
    exact hne (hslot' ▸ hempty)

/-- The fourth reservation of a queue of three slots gets the first slot anew,
while another producer still writes and a message is held. -/
example :
    let ops := [.reserve, .abandon 0, .reserve, .reserve, .commit 1 1, .hold]
    ({} : Owners).follow (ofSize 3 1) ops = { handles := [2], guards := [1] } ∧
      ((run step (ofSize 3 1) ops).2.reserve.map Prod.fst) = some 3 := by
  decide

end SendQueue

end PresenceLink
