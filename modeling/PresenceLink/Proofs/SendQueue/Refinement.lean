import PresenceLink.Proofs.SendQueue.Fifo
import PresenceLink.Proofs.SendQueue.Ring

/-!
# A send queue is a bounded queue of reservations

`toFifo` forgets the ring: the unreleased reservations with their messages, and
the buffers of the empty slots. Each operation on a well-formed queue does to
this view what the operation of the same name does to a `Fifo`.

* `toFifo_reserve`, `toFifo_fill`, `toFifo_commit`, `toFifo_abandon`,
  `hold_toFifo`, `unhold_toFifo`: one law for each operation;
* `step_toFifo`, `run_toFifo`: one operation and a run of them;
* `sendQueue_refines_fifo`: the same answers, whatever the operations.
-/

namespace PresenceLink

def Slot.toReservation (s : Slot) : Reservation where
  stage := match s.state with
    | .writing => .writing
    | .ready => .committed s.message
    | _ => .abandoned
  buffer := s.buffer

namespace SendQueue

def toFifo (q : SendQueue) : Fifo where
  slotCapacity := q.slotCapacity
  first := q.nextSend
  live := q.taken.map Slot.toReservation
  free := q.spare.map (·.buffer)
  held := q.draining

theorem toFifo_ofSize (slots slotCapacity : Nat) :
    (ofSize slots slotCapacity).toFifo = Fifo.ofSize slots slotCapacity := by
  simp only [toFifo, taken_ofSize, spare_ofSize, List.map_nil, List.map_replicate]
  rfl

theorem bounds_toFifo (q : SendQueue) : q.toFifo.bounds = (q.capacity, q.slotCapacity) := by
  have hparts := congrArg List.length q.taken_append_spare
  rw [List.length_append, length_ring] at hparts
  simp only [Fifo.bounds, toFifo, List.length_map, hparts, capacity]

/-! ## Reserving -/

theorem toFifo_reserve_none {q : SendQueue} (hr : q.reserve = none) :
    q.toFifo.reserve = (none, q.toFifo) := by
  rw [reserve_eq_none_iff_spare] at hr
  simp [Fifo.reserve, toFifo, hr]

theorem toFifo_reserve {q q' : SendQueue} {r : Nat} (h : q.WellFormed)
    (hr : q.reserve = some (r, q')) : q.toFifo.reserve = (some r, q'.toFifo) := by
  obtain ⟨rfl, s, rest, hs, ht, hp⟩ := h.parts_reserve hr
  obtain ⟨-, hcap, -, hsend, -, -, hdrain⟩ := reserve_frame hr
  simp only [Fifo.reserve, toFifo, hs, List.map_cons, List.length_map, h.length_taken, ht, hp,
    hcap, hsend, hdrain, List.map_append, List.map_nil]
  rfl

/-! ## Live reservations -/

theorem toFifo_buffer? {q : SendQueue} (h : q.WellFormed) (r : Nat) :
    q.toFifo.buffer? r = q.buffer? r := by
  apply Option.ext
  intro buffer
  rw [Fifo.buffer?_eq_some_iff, buffer?, Option.map_eq_some_iff]
  simp only [h.writing?_eq_some_iff, toFifo, List.getElem?_map, Option.map_eq_some_iff]
  constructor
  · rintro ⟨hr, s, hs, he⟩
    refine ⟨s, ⟨hr, hs, ?_⟩, congrArg Reservation.buffer he⟩
    have hst := congrArg Reservation.stage he
    revert hst
    unfold Slot.toReservation
    cases s.state <;> simp
  · rintro ⟨s, ⟨hr, hs, hw⟩, rfl⟩
    exact ⟨hr, s, hs, by rw [Slot.toReservation, hw]⟩

/-- Changing the slot of a live reservation changes that reservation only. -/
theorem toFifo_setSlot {q : SendQueue} (h : q.WellFormed) {r : Nat} {s s' : Slot}
    (hs : q.writing? r = some s) (pending : Nat) (next : Bytes → Reservation)
    (hn : next s.buffer = s'.toReservation) :
    { q.setSlot r s' with pending }.toFifo = q.toFifo.replace r next := by
  have hb : q.toFifo.buffer? r = some s.buffer := by
    rw [toFifo_buffer? h, buffer?, hs]
    rfl
  obtain ⟨hr, hget, -⟩ := h.writing?_eq_some_iff.1 hs
  obtain ⟨k, rfl⟩ := Nat.exists_eq_add_of_le hr
  rw [Nat.add_sub_cancel_left] at hget
  have hk : k < q.occupied := h.length_taken ▸ (List.getElem?_eq_some_iff.1 hget).1
  obtain ⟨ht, hp⟩ := h.parts_setSlot hk s'
  rw [Fifo.replace_of_buffer? hb, hn]
  change { toFifo (q.setSlot (q.nextSend + k) s') with } = _
  simp only [toFifo, ht, hp, List.map_set, Nat.add_sub_cancel_left]
  rfl

theorem toFifo_replace_none {q : SendQueue} (h : q.WellFormed) {r : Nat}
    (hs : q.writing? r = none) (next : Bytes → Reservation) :
    q.toFifo.replace r next = q.toFifo := by
  apply Fifo.replace_of_closed
  rw [toFifo_buffer? h, buffer?, hs]
  rfl

theorem WellFormed.fill {q : SendQueue} (h : q.WellFormed) (r : Nat) (buffer : Bytes) :
    (q.fill r buffer).WellFormed := by
  unfold SendQueue.fill
  split
  · rename_i s hs
    split
    · rename_i hlen
      have hw := (h.writing?_eq_some_iff.1 hs).2.2
      exact h.setSlot hs { s with buffer } hlen (by simp [hw]) (by simp [hw])
    · exact h
  · exact h

theorem toFifo_fill {q : SendQueue} (h : q.WellFormed) (r : Nat) (buffer : Bytes) :
    (q.fill r buffer).toFifo = q.toFifo.fill r buffer := by
  unfold SendQueue.fill Fifo.fill
  split
  · rename_i s hs
    have hw := (h.writing?_eq_some_iff.1 hs).2.2
    split
    · rename_i hlen
      exact toFifo_setSlot h hs q.pending _ (by simp [Slot.toReservation, hw, hlen])
    · rename_i hlen
      have hb : q.toFifo.buffer? r = some s.buffer := by
        rw [toFifo_buffer? h, buffer?, hs]
        rfl
      rw [Fifo.replace_same hb (by rw [if_neg hlen])]
  · rename_i hs
    rw [toFifo_replace_none h hs]

theorem WellFormed.commit {q : SendQueue} (h : q.WellFormed) (r length : Nat) :
    (q.commit r length).WellFormed := by
  unfold SendQueue.commit
  split
  · rename_i s hs
    exact h.setSlot hs { s with state := .ready, length := _ } rfl (by simp) (by simp)
  · exact h

theorem toFifo_commit {q : SendQueue} (h : q.WellFormed) (r length : Nat) :
    (q.commit r length).toFifo = q.toFifo.commit r length := by
  unfold SendQueue.commit Fifo.commit
  split
  · rename_i s hs
    exact toFifo_setSlot h hs (q.pending + 1) _ rfl
  · rename_i hs
    rw [toFifo_replace_none h hs]

theorem WellFormed.abandon {q : SendQueue} (h : q.WellFormed) (r : Nat) :
    (q.abandon r).WellFormed := by
  unfold SendQueue.abandon
  split
  · rename_i s hs
    exact h.setSlot hs { s with state := .abandoned } rfl (by simp) (by simp)
  · exact h

theorem toFifo_abandon {q : SendQueue} (h : q.WellFormed) (r : Nat) :
    (q.abandon r).toFifo = q.toFifo.abandon r := by
  unfold SendQueue.abandon Fifo.abandon
  split
  · rename_i s hs
    exact toFifo_setSlot h hs (q.pending + 1) _ rfl
  · rename_i hs
    rw [toFifo_replace_none h hs]

/-! ## Taking messages -/

theorem toFifo_release {q : SendQueue} (h : q.WellFormed) {s : Slot} {rest : List Slot}
    (ht : q.taken = s :: rest) : q.release.toFifo = q.toFifo.release := by
  obtain ⟨htaken, hspare⟩ := h.parts_release ht
  simp only [toFifo, htaken, hspare, ht, Fifo.release, List.map_cons, List.map_append,
    List.map_nil, slotCapacity_release, draining_release]
  rfl

theorem WellFormed.head?_of_taken {q : SendQueue} (h : q.WellFormed) {s : Slot}
    {rest : List Slot} (ht : q.taken = s :: rest) :
    q.head? = some s ∧ q.toFifo.live = s.toReservation :: rest.map Slot.toReservation := by
  constructor
  · rw [h.head?_eq, ← taken_append_spare, ht]
    rfl
  · rw [toFifo, ht, List.map_cons]

theorem WellFormed.state_head? {q : SendQueue} (h : q.WellFormed) (ht : q.taken = []) {s : Slot}
    (hs : q.head? = some s) : s.state = .empty := by
  rw [h.head?_eq, ← taken_append_spare, ht, List.nil_append] at hs
  exact h.spare_eq s (List.mem_of_mem_head? hs)

theorem WellFormed.pending_pos {q : SendQueue} (h : q.WellFormed) {s : Slot} {rest : List Slot}
    (ht : q.taken = s :: rest) (hs : s.state ≠ .writing) : 0 < q.pending := by
  rw [h.pending_eq, ht]
  simp [hs]

theorem WellFormed.isAbandoned_iff {q : SendQueue} (h : q.WellFormed) {s : Slot}
    (hs : s ∈ q.taken) : s.toReservation.isAbandoned = true ↔ s.state = .abandoned := by
  have hne := h.taken_ne s hs
  cases he : s.state <;> simp_all [Slot.toReservation, Reservation.isAbandoned]

/-- Skipping stops at the first reservation that is not abandoned; as many
steps as there are pending slots are enough. -/
theorem skipAbandoned_toFifo (n : Nat) {q : SendQueue} (h : q.WellFormed)
    (hd : q.draining = false) (hn : q.pending ≤ n) :
    (skipAbandoned n q).WellFormed ∧ (skipAbandoned n q).draining = false ∧
      (skipAbandoned n q).toFifo = q.toFifo.skip := by
  induction n generalizing q with
  | zero =>
    refine ⟨h, hd, ?_⟩
    rw [skipAbandoned, Fifo.skip_of_kept]
    intro x hx
    cases ht : q.taken with
    | nil => simp [toFifo, ht] at hx
    | cons s rest =>
      obtain ⟨-, hlive⟩ := h.head?_of_taken ht
      have hw : s.state = .writing := by
        by_contra hw
        exact absurd (h.pending_pos ht hw) (by omega)
      rw [hlive] at hx
      cases hx
      simp [Slot.toReservation, Reservation.isAbandoned, hw]
  | succ n ih =>
    by_cases hgo : ∃ s rest, q.taken = s :: rest ∧ s.state = .abandoned
    · obtain ⟨s, rest, ht, hs⟩ := hgo
      obtain ⟨hhead, hlive⟩ := h.head?_of_taken ht
      have hwf : q.release.WellFormed := by
        have hr := h.release ht (by simp [hs])
        rwa [← hd, ← draining_release] at hr
      have hstep : skipAbandoned (n + 1) q = skipAbandoned n q.release := by
        obtain ⟨state, length, buffer⟩ := s
        cases hs
        rw [skipAbandoned, hhead]
      have hx := (h.isAbandoned_iff (by rw [ht]; exact List.mem_cons_self)).2 hs
      rw [hstep, Fifo.skip_of_abandoned hlive hx, ← toFifo_release h ht]
      exact ih hwf (by simpa using hd) (by simp only [pending_release]; omega)
    · have hstop : skipAbandoned (n + 1) q = q := by
        unfold skipAbandoned
        split
        · rename_i length buffer hs
          cases ht : q.taken with
          | nil => cases h.state_head? ht hs
          | cons s rest =>
            rw [(h.head?_of_taken ht).1] at hs
            cases hs
            exact absurd ⟨_, rest, ht, rfl⟩ hgo
        · rfl
      rw [hstop, Fifo.skip_of_kept]
      · exact ⟨h, hd, rfl⟩
      · intro x hx
        cases ht : q.taken with
        | nil => simp [toFifo, ht] at hx
        | cons s rest =>
          rw [(h.head?_of_taken ht).2] at hx
          cases hx
          rw [← Bool.not_eq_true, h.isAbandoned_iff (by rw [ht]; exact List.mem_cons_self)]
          exact fun hs => hgo ⟨s, rest, ht, hs⟩

/-- What may be taken now is the message of the oldest reservation. -/
theorem front?_eq {q : SendQueue} (h : q.WellFormed) :
    q.front? = q.toFifo.live.head?.bind Reservation.message? := by
  unfold front?
  cases ht : q.taken with
  | nil =>
    have hp : q.pending = 0 := by rw [h.pending_eq, ht]; rfl
    simp [hp, toFifo, ht]
  | cons s rest =>
    obtain ⟨hhead, hlive⟩ := h.head?_of_taken ht
    rw [hhead, hlive, List.head?_cons, Option.bind_some]
    by_cases hs : s.state = .ready
    · have hp := h.pending_pos ht (by simp [hs])
      simp only [hs, Nat.ne_of_gt hp, ↓reduceIte]
      simp [Reservation.message?, Slot.toReservation, hs]
    · have hm : s.toReservation.message? = none := by
        cases he : s.state <;> simp_all [Slot.toReservation, Reservation.message?]
      simp only [hs, hm, ↓reduceIte, ite_self]

theorem taken_of_front? {q : SendQueue} (h : q.WellFormed) {message : Bytes}
    (hf : q.front? = some message) : ∃ s rest, q.taken = s :: rest ∧ s.state = .ready := by
  rw [front?_eq h] at hf
  cases ht : q.taken with
  | nil => simp [toFifo, ht] at hf
  | cons s rest =>
    rw [(h.head?_of_taken ht).2, List.head?_cons, Option.bind_some] at hf
    refine ⟨s, rest, rfl, ?_⟩
    cases he : s.state <;> simp_all [Slot.toReservation, Reservation.message?]

theorem hold_toFifo {q : SendQueue} (h : q.WellFormed) :
    q.hold.2.WellFormed ∧ q.toFifo.hold = (q.hold.1, q.hold.2.toFifo) := by
  unfold SendQueue.hold Fifo.hold
  by_cases hd : q.draining = true
  · rw [if_pos hd, if_pos (by exact hd)]
    exact ⟨h, rfl⟩
  · rw [if_neg hd, if_neg (by exact hd)]
    obtain ⟨hwf, hd', hskip⟩ :=
      skipAbandoned_toFifo q.pending h (by simpa using hd) (Nat.le_refl _)
    simp only [← hskip, ← front?_eq hwf]
    cases hf : (skipAbandoned q.pending q).front? with
    | none => exact ⟨hwf, rfl⟩
    | some message =>
      have hready := taken_of_front? hwf hf
      exact ⟨{ hwf with held := fun _ => hready }, rfl⟩

theorem unhold_toFifo {q : SendQueue} (h : q.WellFormed) :
    q.unhold.WellFormed ∧ q.toFifo.unhold = q.unhold.toFifo := by
  unfold SendQueue.unhold Fifo.unhold
  by_cases hd : q.draining = true
  · obtain ⟨s, rest, ht, hs⟩ := h.held hd
    rw [if_pos hd, if_pos (by exact hd), ← toFifo_release h ht]
    exact ⟨h.release ht (by simp [hs]), rfl⟩
  · rw [if_neg hd, if_neg (by exact hd)]
    exact ⟨h, rfl⟩

/-! ## Runs -/

def step (q : SendQueue) : Op → Answer × SendQueue
  | .reserve =>
    match q.reserve with
    | some (r, q) => (.reserved (some r), q)
    | none => (.reserved none, q)
  | .peek r => (.buffer (q.buffer? r), q)
  | .fill r buffer => (.done, q.fill r buffer)
  | .write r offset piece =>
    match q.write r offset piece with
    | some (count, q) => (.written (some count), q)
    | none => (.written none, q)
  | .commit r length => (.done, q.commit r length)
  | .abandon r => (.done, q.abandon r)
  | .hold =>
    let (message, q) := q.hold
    (.message message, q)
  | .unhold => (.done, q.unhold)

theorem step_toFifo {q : SendQueue} (h : q.WellFormed) (op : Op) :
    (q.step op).2.WellFormed ∧ q.toFifo.step op = ((q.step op).1, (q.step op).2.toFifo) := by
  cases op with
  | reserve =>
    unfold step Fifo.step
    cases hr : q.reserve with
    | none => exact ⟨h, by rw [toFifo_reserve_none hr]⟩
    | some p => exact ⟨h.reserve hr, by rw [toFifo_reserve h hr]⟩
  | peek r => exact ⟨h, by rw [Fifo.step, toFifo_buffer? h]; rfl⟩
  | fill r buffer => exact ⟨h.fill r buffer, by rw [Fifo.step, ← toFifo_fill h]; rfl⟩
  | write r offset piece =>
    simp only [step, Fifo.step, write, toFifo_buffer? h]
    cases q.buffer? r with
    | none => exact ⟨h, rfl⟩
    | some old => exact ⟨h.fill r _, by simp only [toFifo_fill h]⟩
  | commit r length => exact ⟨h.commit r length, by rw [Fifo.step, ← toFifo_commit h]; rfl⟩
  | abandon r => exact ⟨h.abandon r, by rw [Fifo.step, ← toFifo_abandon h]; rfl⟩
  | hold =>
    obtain ⟨hwf, hhold⟩ := hold_toFifo h
    exact ⟨hwf, by rw [Fifo.step, hhold]; rfl⟩
  | unhold =>
    obtain ⟨hwf, hunhold⟩ := unhold_toFifo h
    exact ⟨hwf, by rw [Fifo.step, hunhold]; rfl⟩

theorem run_toFifo {q : SendQueue} (h : q.WellFormed) (ops : List Op) :
    (run step q ops).2.WellFormed ∧
      run Fifo.step q.toFifo ops = ((run step q ops).1, (run step q ops).2.toFifo) := by
  induction ops generalizing q with
  | nil => exact ⟨h, rfl⟩
  | cons op ops ih =>
    obtain ⟨hwf, hstep⟩ := step_toFifo h op
    obtain ⟨hwf', hrun⟩ := ih hwf
    refine ⟨hwf', ?_⟩
    rw [run, hstep]
    simp only [hrun]
    rfl

/-- **A send queue is a bounded queue of reservations.** It gives the answers
of the queue without slots, whatever the operations and whichever reservations
they are about. It refuses a reservation exactly when the unreleased ones fill
all slots; it gives out a message exactly when none is held and the oldest
reservation that is not abandoned is committed, and then that one's message;
and a message is what its buffer held when it was committed, cut to the length
given, whatever happens to other reservations. -/
theorem sendQueue_refines_fifo (slots slotCapacity : Nat) (ops : List Op) :
    let q := run step (ofSize slots slotCapacity) ops
    let f := run Fifo.step (Fifo.ofSize slots slotCapacity) ops
    q.1 = f.1 ∧ q.2.toFifo = f.2 ∧
      (q.2.reserve.isSome ↔ f.2.live.length < Nat.max slots 1) ∧
      (∀ message, q.2.hold.1 = some message ↔ f.2.held = false ∧ ∃ buffer rest,
        f.2.live.dropWhile Reservation.isAbandoned = ⟨.committed message, buffer⟩ :: rest) ∧
      (∀ r buffer length, q.2.buffer? r = some buffer →
        (q.2.commit r length).toFifo.reservation? r =
          some ⟨.committed (buffer.take (Nat.min length (Nat.max slotCapacity 1))), buffer⟩) ∧
      ∀ r x op, f.2.reservation? r = some x → (op.target? = some r → x.stage ≠ .writing) →
        r < (q.2.step op).2.nextSend ∨ (q.2.step op).2.toFifo.reservation? r = some x := by
  intro q f
  obtain ⟨hwf, hrun⟩ := run_toFifo (wellFormed_ofSize slots slotCapacity) ops
  rw [toFifo_ofSize] at hrun
  have hq : q.1 = f.1 := (congrArg Prod.fst hrun).symm
  have hf : q.2.toFifo = f.2 := (congrArg Prod.snd hrun).symm
  have hbounds : f.2.bounds = (Nat.max slots 1, Nat.max slotCapacity 1) := by
    rw [Fifo.bounds_run]
    simp [Fifo.bounds, Fifo.ofSize]
  obtain ⟨hsize, hcap⟩ := Prod.mk.injEq .. ▸ hbounds
  have hwf : q.2.WellFormed := hwf
  refine ⟨hq, hf, ?_, ?_, ?_, ?_⟩
  · rw [Option.isSome_iff_ne_none, Ne, reserve_eq_none_iff_spare]
    have hfree : q.2.spare = [] ↔ f.2.free = [] := by rw [← hf]; simp [toFifo]
    rw [hfree, ← hsize, ← List.length_eq_zero_iff]
    omega
  · intro message
    rw [← Fifo.hold_eq_some_iff, ← hf, (hold_toFifo hwf).2]
  · intro r buffer length hb
    rw [← toFifo_buffer? hwf] at hb
    rw [toFifo_commit hwf, Fifo.reservation?_commit hb, hf, hcap]
  · intro r x op hr ht
    have hstep := congrArg Prod.snd (step_toFifo hwf op).2
    rw [← hf] at hr
    have h := Fifo.reservation?_step hr op ht
    rw [hstep] at h
    exact h

end SendQueue

end PresenceLink
