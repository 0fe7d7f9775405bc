import Mathlib.Data.List.Rotate
import Mathlib.Data.Nat.ModEq
import PresenceLink.SendQueue

/-!
# The slots of a queue, oldest reservation first

Turned until the oldest unreleased reservation comes first, the slots of a
queue are those of the unreleased reservations, oldest first, and behind them
the empty ones, in the order in which they will be reserved. No index is taken
modulo the number of slots any more.

* `WellFormed`: what holds of a queue between any two operations, whichever
  reservations are live;
* `WellFormed.parts_reserve`, `WellFormed.parts_setSlot`,
  `WellFormed.parts_release`: what a reservation, a change to a live one and a
  release do to the two parts;
* `WellFormed.writing?_eq_some_iff`: the live reservations.
-/

namespace PresenceLink.SendQueue

/-- The slots from that of the oldest unreleased reservation on. -/
def ring (q : SendQueue) : List Slot := q.slots.rotate q.nextSend

/-- The slots of the unreleased reservations, oldest first. -/
def taken (q : SendQueue) : List Slot := q.ring.take q.occupied

/-- The other slots, next to be reserved first. -/
def spare (q : SendQueue) : List Slot := q.ring.drop q.occupied

/-- What holds of a queue between operations. -/
structure WellFormed (q : SendQueue) : Prop where
  slots_pos : 0 < q.slots.length
  size : ∀ s ∈ q.ring, s.buffer.length = q.slotCapacity
  nextAdd_eq : q.nextAdd = q.nextSend + q.occupied
  occupied_le : q.occupied ≤ q.slots.length
  taken_ne : ∀ s ∈ q.taken, s.state ≠ .empty
  spare_eq : ∀ s ∈ q.spare, s.state = .empty
  pending_eq : q.pending = q.taken.countP fun s => s.state ≠ .writing
  /-- A held message is in the oldest slot. -/
  held : q.draining = true → ∃ s rest, q.taken = s :: rest ∧ s.state = .ready

/-! ## The two parts -/

@[simp] theorem length_ring (q : SendQueue) : q.ring.length = q.slots.length := by simp [ring]

theorem taken_append_spare (q : SendQueue) : q.taken ++ q.spare = q.ring :=
  List.take_append_drop ..

/-- Slots are counted as they lie or part by part. -/
theorem countP_slots (q : SendQueue) (p : Slot → Bool) :
    q.slots.countP p = q.taken.countP p + q.spare.countP p := by
  rw [← List.countP_append, taken_append_spare]
  exact ((List.rotate_perm q.slots q.nextSend).countP_eq p).symm

theorem length_spare (q : SendQueue) : q.spare.length = q.slots.length - q.occupied := by
  simp [spare]

theorem WellFormed.length_taken {q : SendQueue} (h : q.WellFormed) :
    q.taken.length = q.occupied := by
  simp [taken, h.occupied_le]

theorem WellFormed.size_taken {q : SendQueue} (h : q.WellFormed) {s : Slot} (hs : s ∈ q.taken) :
    s.buffer.length = q.slotCapacity :=
  h.size s (List.mem_of_mem_take hs)

/-- The turned slots split where the unreleased reservations end. -/
theorem parts_of_ring {q : SendQueue} {t p : List Slot} (hr : q.ring = t ++ p)
    (ht : t.length = q.occupied) : q.taken = t ∧ q.spare = p := by
  constructor
  · rw [taken, hr, ← ht, List.take_left]
  · rw [spare, hr, ← ht, List.drop_left]

theorem slotOf_add (q : SendQueue) {k : Nat} (hk : k < q.slots.length) :
    q.slotOf (q.nextSend + k) = q.ring[k]? := by
  rw [slotOf, ring, List.getElem?_rotate hk, Nat.add_comm]

/-- Two reservations less than a round apart have different slots. -/
theorem eq_of_mod_eq {n a r r' : Nat} (hr : a ≤ r ∧ r < a + n) (hr' : a ≤ r' ∧ r' < a + n)
    (h : r % n = r' % n) : r = r' := by
  obtain ⟨k, rfl⟩ := Nat.exists_eq_add_of_le hr.1
  obtain ⟨k', rfl⟩ := Nat.exists_eq_add_of_le hr'.1
  have hk : k % n = k' % n := Nat.ModEq.add_left_cancel' a h
  rw [Nat.mod_eq_of_lt (by omega), Nat.mod_eq_of_lt (by omega)] at hk
  rw [hk]

/-- A slot is changed where its reservation stands among the turned slots. -/
theorem ring_setSlot (q : SendQueue) {k : Nat} (hk : k < q.slots.length) (s : Slot) :
    (q.setSlot (q.nextSend + k) s).ring = q.ring.set k s := by
  apply List.ext_getElem?
  intro j
  by_cases hj : j < q.slots.length
  · have hset : j < (q.slots.set ((q.nextSend + k) % q.slots.length) s).length := by simpa using hj
    have hmod : (q.nextSend + k) % q.slots.length < q.slots.length := Nat.mod_lt _ (by omega)
    simp only [ring, setSlot, List.getElem?_rotate hset, List.length_set, List.getElem?_set,
      List.length_rotate, List.getElem?_rotate hj]
    by_cases e : k = j
    · rw [e, Nat.add_comm j q.nextSend]
      simp [Nat.mod_lt _ (show 0 < q.slots.length by omega), hj]
    · have hne : (q.nextSend + k) % q.slots.length ≠ (j + q.nextSend) % q.slots.length := by
        intro h
        have hkj := eq_of_mod_eq (a := q.nextSend) (by omega) (by omega) h
        omega
      simp [e, hne]
  · rw [List.getElem?_eq_none (by simpa using hj), List.getElem?_eq_none (by simpa using hj)]

theorem taken_ofSize (slots slotCapacity : Nat) : (ofSize slots slotCapacity).taken = [] := by
  simp [taken, ofSize]

theorem spare_ofSize (slots slotCapacity : Nat) :
    (ofSize slots slotCapacity).spare =
      List.replicate (Nat.max slots 1) (Slot.fresh (Nat.max slotCapacity 1)) := by
  simp [spare, ring, ofSize]

theorem wellFormed_ofSize (slots slotCapacity : Nat) : (ofSize slots slotCapacity).WellFormed where
  slots_pos := by
    simp only [ofSize, List.length_replicate]
    exact Nat.le_max_right ..
  size s hs := by
    rw [ring, ofSize, List.mem_rotate] at hs
    simp [List.eq_of_mem_replicate hs, ofSize, Slot.fresh]
  nextAdd_eq := rfl
  occupied_le := Nat.zero_le _
  taken_ne := by simp [taken_ofSize]
  spare_eq s hs := by
    rw [spare_ofSize] at hs
    rw [List.eq_of_mem_replicate hs, Slot.fresh]
  pending_eq := by rw [taken_ofSize]; rfl
  held h := by cases h

/-! ## Reserving -/

/-- A reservation succeeds as long as a slot is spare. -/
theorem reserve_eq_none_iff_spare (q : SendQueue) : q.reserve = none ↔ q.spare = [] := by
  rw [reserve_eq_none_iff, ← List.length_eq_zero_iff, length_spare]
  omega

/-- Besides a state, a reservation changes two counts only. -/
theorem reserve_frame {q q' : SendQueue} {r : Nat} (hr : q.reserve = some (r, q')) :
    q'.slots.length = q.slots.length ∧ q'.slotCapacity = q.slotCapacity ∧
      q'.nextAdd = q.nextAdd + 1 ∧ q'.nextSend = q.nextSend ∧ q'.occupied = q.occupied + 1 ∧
      q'.pending = q.pending ∧ q'.draining = q.draining := by
  unfold reserve at hr
  split at hr
  · cases hr
  · simp only [Option.some.injEq, Prod.mk.injEq] at hr
    obtain ⟨-, rfl⟩ := hr
    unfold setState
    split <;> simp [setSlot]

/-- The first spare slot becomes the last one taken. -/
theorem WellFormed.parts_reserve {q q' : SendQueue} {r : Nat} (h : q.WellFormed)
    (hr : q.reserve = some (r, q')) :
    r = q.nextSend + q.occupied ∧ ∃ s rest, q.spare = s :: rest ∧
      q'.taken = q.taken ++ [{ s with state := .writing }] ∧ q'.spare = rest := by
  have hlt : q.occupied < q.slots.length := by
    by_contra hn
    rw [(reserve_eq_none_iff q).2 (by omega)] at hr
    cases hr
  obtain ⟨s, rest, hs⟩ : ∃ s rest, q.spare = s :: rest := by
    rw [← List.ne_nil_iff_exists_cons, ← List.length_pos_iff, length_spare]
    omega
  have hring : q.ring = q.taken ++ s :: rest := by rw [← hs, taken_append_spare]
  have hslot : q.slotOf (q.nextSend + q.occupied) = some s := by
    rw [slotOf_add q hlt, hring, ← h.length_taken, List.getElem?_append_right (Nat.le_refl _)]
    simp
  rw [reserve, if_neg (by omega)] at hr
  simp only [h.nextAdd_eq, setState, hslot, Option.some.injEq, Prod.mk.injEq] at hr
  obtain ⟨rfl, rfl⟩ := hr
  refine ⟨rfl, s, rest, hs, parts_of_ring ?_ (by simp [h.length_taken])⟩
  have hset := ring_setSlot q hlt { s with state := .writing }
  rw [hring, ← h.length_taken, List.set_append_right _ _ (Nat.le_refl _), h.length_taken] at hset
  simpa [ring] using hset

theorem WellFormed.reserve {q q' : SendQueue} {r : Nat} (h : q.WellFormed)
    (hr : q.reserve = some (r, q')) : q'.WellFormed := by
  obtain ⟨-, s, rest, hs, ht, hp⟩ := h.parts_reserve hr
  obtain ⟨h1, h2, h3, h4, h5, h6, h7⟩ := reserve_frame hr
  have hlt : 0 < q.spare.length := by simp [hs]
  rw [length_spare] at hlt
  have hmem : s ∈ q.spare := by simp [hs]
  have hring : q'.ring = q.taken ++ { s with state := .writing } :: rest := by
    rw [← taken_append_spare, ht, hp]
    simp
  constructor
  case slots_pos => rw [h1]; exact h.slots_pos
  case size =>
    intro x hx
    rw [hring, List.mem_append, List.mem_cons] at hx
    rw [h2]
    rcases hx with hx | rfl | hx
    · exact h.size x (List.mem_of_mem_take hx)
    · exact h.size s (List.mem_of_mem_drop hmem)
    · exact h.size x (List.mem_of_mem_drop (by rw [← spare, hs]; exact List.mem_cons_of_mem _ hx))
  case nextAdd_eq => rw [h3, h4, h5, h.nextAdd_eq, Nat.add_assoc]
  case occupied_le => omega
  case taken_ne =>
    intro x hx
    rw [ht, List.mem_append, List.mem_singleton] at hx
    rcases hx with hx | rfl
    · exact h.taken_ne x hx
    · simp
  case spare_eq =>
    intro x hx
    rw [hp] at hx
    exact h.spare_eq x (by rw [hs]; exact List.mem_cons_of_mem _ hx)
  case pending_eq => rw [h6, h.pending_eq, ht]; simp
  case held =>
    intro hd
    obtain ⟨x, xs, hx, hst⟩ := h.held (h7 ▸ hd)
    exact ⟨x, xs ++ [{ s with state := .writing }], by rw [ht, hx]; rfl, hst⟩

/-! ## Live reservations -/

theorem WellFormed.writing?_eq_some_iff {q : SendQueue} (h : q.WellFormed) {r : Nat} {s : Slot} :
    q.writing? r = some s ↔
      q.nextSend ≤ r ∧ q.taken[r - q.nextSend]? = some s ∧ s.state = .writing := by
  have hocc := h.occupied_le
  by_cases hr : q.nextSend ≤ r
  · obtain ⟨k, rfl⟩ := Nat.exists_eq_add_of_le hr
    rw [Nat.add_sub_cancel_left, writing?]
    by_cases hk : k < q.occupied
    · rw [if_pos ⟨hr, by have := h.nextAdd_eq; omega⟩, slotOf_add q (by omega), taken,
        List.getElem?_take_of_lt hk]
      simp [Option.filter_eq_some_iff]
    · rw [if_neg (by have := h.nextAdd_eq; omega),
        List.getElem?_eq_none (by rw [h.length_taken]; omega)]
      simp
  · rw [writing?, if_neg (by omega)]
    simp [hr]

theorem WellFormed.parts_setSlot {q : SendQueue} (h : q.WellFormed) {k : Nat}
    (hk : k < q.occupied) (s : Slot) :
    (q.setSlot (q.nextSend + k) s).taken = q.taken.set k s ∧
      (q.setSlot (q.nextSend + k) s).spare = q.spare := by
  apply parts_of_ring
  · rw [ring_setSlot q (Nat.lt_of_lt_of_le hk h.occupied_le), ← taken_append_spare,
      List.set_append_left _ _ (by rw [h.length_taken]; exact hk)]
  · rw [List.length_set, h.length_taken]
    rfl

/-- A slot that is being written may be written on, committed or abandoned. -/
theorem WellFormed.setSlot {q : SendQueue} (h : q.WellFormed) {r : Nat} {s : Slot}
    (hs : q.writing? r = some s) (s' : Slot) (hsize : s'.buffer.length = s.buffer.length)
    (hne : s'.state ≠ .empty) {pending : Nat}
    (hp : pending = q.pending + if s'.state = .writing then 0 else 1) :
    { q.setSlot r s' with pending }.WellFormed := by
  obtain ⟨hr, hget, hw⟩ := h.writing?_eq_some_iff.1 hs
  obtain ⟨k, rfl⟩ := Nat.exists_eq_add_of_le hr
  rw [Nat.add_sub_cancel_left] at hget
  obtain ⟨hk, hget'⟩ := List.getElem?_eq_some_iff.1 hget
  have hocc : k < q.occupied := h.length_taken ▸ hk
  obtain ⟨ht, hspare⟩ := h.parts_setSlot hocc s'
  have hmem : s ∈ q.taken := List.mem_of_getElem? hget
  have htaken : ∀ x ∈ q.taken.set k s', x = s' ∨ x ∈ q.taken := fun x hx =>
    (List.mem_or_eq_of_mem_set hx).symm
  constructor
  case slots_pos => exact Nat.lt_of_lt_of_eq h.slots_pos (slots_length_setSlot q _ s').symm
  case size =>
    intro x hx
    change x ∈ (q.setSlot (q.nextSend + k) s').ring at hx
    change x.buffer.length = q.slotCapacity
    rw [← taken_append_spare, ht, hspare, List.mem_append] at hx
    rcases hx with hx | hx
    · rcases htaken x hx with rfl | hx
      · rw [hsize]
        exact h.size_taken hmem
      · exact h.size_taken hx
    · exact h.size x (List.mem_of_mem_drop hx)
  case nextAdd_eq => exact h.nextAdd_eq
  case occupied_le => exact (slots_length_setSlot q _ s').symm ▸ h.occupied_le
  case taken_ne =>
    intro x hx
    rcases htaken x (ht ▸ hx) with rfl | hx
    · exact hne
    · exact h.taken_ne x hx
  case spare_eq => exact fun x hx => h.spare_eq x (hspare ▸ hx)
  case pending_eq =>
    change pending = (q.setSlot (q.nextSend + k) s').taken.countP _
    rw [ht, List.countP_set hk, hget', hp, h.pending_eq]
    cases hst : s'.state <;> simp_all
  case held =>
    intro hd
    obtain ⟨x, rest, hx, hready⟩ := h.held hd
    change ∃ y ys, (q.setSlot (q.nextSend + k) s').taken = y :: ys ∧ _
    -- The held message is committed, so the slot that changes is a later one.
    cases k with
    | zero =>
      rw [hx] at hget
      cases hget
      rw [hready] at hw
      cases hw
    | succ k => exact ⟨x, rest.set k s', by rw [ht, hx]; rfl, hready⟩

/-! ## Releasing -/

theorem WellFormed.head?_eq {q : SendQueue} (h : q.WellFormed) : q.head? = q.ring.head? := by
  rw [head?, ← Nat.add_zero q.nextSend, slotOf_add q h.slots_pos, List.head?_eq_getElem?]

/-- The oldest slot goes behind the spare ones. -/
theorem WellFormed.parts_release {q : SendQueue} (h : q.WellFormed) {s : Slot} {rest : List Slot}
    (ht : q.taken = s :: rest) :
    q.release.taken = rest ∧ q.release.spare = q.spare ++ [{ s with state := .empty }] := by
  have hlen := h.length_taken
  rw [ht, List.length_cons] at hlen
  have hslot : q.slotOf q.nextSend = some s := by
    rw [← head?, h.head?_eq, ← taken_append_spare, ht]
    rfl
  apply parts_of_ring
  · have hset := ring_setSlot q h.slots_pos { s with state := .empty }
    rw [← taken_append_spare q, ht, Nat.add_zero] at hset
    rw [release, setState, hslot, ring]
    simp only
    rw [← List.rotate_rotate]
    change (q.setSlot q.nextSend { s with state := .empty }).ring.rotate 1 = _
    rw [hset]
    simp
  · rw [release]
    simp only
    omega

@[simp] theorem draining_release (q : SendQueue) : q.release.draining = q.draining := by
  unfold SendQueue.release setState
  split <;> rfl

@[simp] theorem slotCapacity_release (q : SendQueue) :
    q.release.slotCapacity = q.slotCapacity := by
  unfold SendQueue.release setState
  split <;> rfl

@[simp] theorem nextAdd_release (q : SendQueue) : q.release.nextAdd = q.nextAdd := by
  unfold SendQueue.release setState
  split <;> rfl

theorem WellFormed.release {q : SendQueue} (h : q.WellFormed) {s : Slot} {rest : List Slot}
    (ht : q.taken = s :: rest) (hs : s.state ≠ .writing) :
    { q.release with draining := false }.WellFormed := by
  have hlen := h.length_taken
  rw [ht, List.length_cons] at hlen
  obtain ⟨htaken, hspare⟩ := h.parts_release ht
  have hring : q.ring = s :: rest ++ q.spare := by rw [← ht, taken_append_spare]
  constructor
  case slots_pos => exact (slots_length_release q).symm ▸ h.slots_pos
  case size =>
    intro x hx
    change x ∈ q.release.ring at hx
    change x.buffer.length = q.release.slotCapacity
    rw [← taken_append_spare, htaken, hspare, List.mem_append, List.mem_append,
      List.mem_singleton] at hx
    rw [slotCapacity_release]
    rcases hx with hx | hx | rfl
    · exact h.size x (by simp [hring, hx])
    · exact h.size x (by simp [hring, hx])
    · exact h.size s (by simp [hring])
  case nextAdd_eq =>
    change q.release.nextAdd = q.nextSend + 1 + (q.occupied - 1)
    rw [nextAdd_release, h.nextAdd_eq]
    omega
  case occupied_le =>
    change q.occupied - 1 ≤ q.release.slots.length
    rw [slots_length_release]
    exact Nat.le_trans (Nat.sub_le ..) h.occupied_le
  case taken_ne =>
    intro x hx
    change x ∈ q.release.taken at hx
    rw [htaken] at hx
    exact h.taken_ne x (by rw [ht]; exact List.mem_cons_of_mem _ hx)
  case spare_eq =>
    intro x hx
    change x ∈ q.release.spare at hx
    rw [hspare, List.mem_append, List.mem_singleton] at hx
    rcases hx with hx | rfl
    · exact h.spare_eq x hx
    · rfl
  case pending_eq =>
    change q.pending - 1 = q.release.taken.countP _
    rw [htaken, h.pending_eq, ht]
    simp [hs]
  case held => exact fun hd => by cases hd

end PresenceLink.SendQueue
