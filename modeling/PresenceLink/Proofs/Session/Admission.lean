import PresenceLink.Proofs.Command.Written
import PresenceLink.Proofs.SendQueue.Idle
import PresenceLink.Session

/-!
# Which requests are queued

A request to a session that is open takes a free slot if there is one. If its
written form fits into the slot it is queued, behind all others; otherwise it is
refused and the slot is left abandoned. So every request but those refused for
want of a slot uses one up, and as long as nothing is taken from the queue the
requests that fit are queued until the free slots are gone.

* `submit_spec`: what a request makes of a free slot;
* `vacant_submit`, `submit_eq`: how many free slots remain, and the answer;
* `answers_submitAll`, `queued_submitEach`: the answers to several requests that
  fit.
-/

namespace PresenceLink

/-- What a command makes of a new reservation with a given buffer. -/
def Command.reservation (c : Command) (buffer : Bytes) : Reservation :=
  if c.encode.length ≤ buffer.length then
    ⟨.committed c.encode, c.encode ++ buffer.drop c.encode.length⟩
  else ⟨.abandoned, c.encode.take buffer.length⟩

theorem Command.message?_reservation (c : Command) (buffer : Bytes) :
    (c.reservation buffer).message? =
      if c.encode.length ≤ buffer.length then some c.encode else none := by
  unfold reservation
  split <;> rfl

theorem Command.reservation_stage (c : Command) (buffer : Bytes) :
    (c.reservation buffer).stage ≠ .writing := by
  unfold reservation
  split <;> simp

namespace Session

/-! ## One request -/

/-- A request makes a reservation if it can, and closes it at once. -/
theorem submit_spec {s : Session} (h : s.queue.WellFormed) (hc : s.closed = false)
    {buffer : Bytes} {free : List Bytes} (hf : s.queue.toFifo.free = buffer :: free)
    (build : UInt64 → Command) :
    (s.submit build).1 = (if (build s.nextNonce).encode.length ≤ s.queue.slotCapacity then
        some (build s.nextNonce) else none) ∧
      (s.submit build).2.nextNonce = s.nextNonce + 1 ∧ (s.submit build).2.queue.WellFormed ∧
      (s.submit build).2.queue.toFifo = { s.queue.toFifo with
        live := s.queue.toFifo.live ++ [(build s.nextNonce).reservation buffer], free } := by
  generalize hcommand : build s.nextNonce = c
  rw [submit, if_neg (by simp [hc])]
  cases hr : s.queue.reserve with
  | none =>
    have hnone := SendQueue.toFifo_reserve_none hr
    rw [Fifo.reserve, hf] at hnone
    cases hnone
  | some p =>
    obtain ⟨r, queue⟩ := p
    obtain ⟨buffer', hfree, hbuf⟩ := h.buffer?_reserve hr
    obtain ⟨rfl, rfl⟩ := List.cons.inj (hf.symm.trans hfree)
    have hsize := h.size_free buffer (by rw [hf]; exact List.mem_cons_self)
    simp only [hbuf, Option.getD_some, hcommand, Command.reservation]
    by_cases hfit : c.encode.length ≤ buffer.length
    · have hlen : (c.encode ++ buffer.drop c.encode.length).length = s.queue.slotCapacity := by
        rw [List.length_append, List.length_drop]
        omega
      obtain ⟨hwf, hview⟩ := h.commit_newest hr hlen (hsize ▸ hfit)
      rw [List.take_left] at hview
      rw [Command.encodeInto_fits hfit, if_pos hfit, if_pos (hsize ▸ hfit)]
      exact ⟨rfl, rfl, hwf, hview⟩
    · have hlen : (c.encode.take buffer.length).length = s.queue.slotCapacity := by
        rw [List.length_take]
        omega
      obtain ⟨hwf, hview⟩ := h.abandon_newest hr hlen
      rw [Command.encodeInto_too_large (by omega), if_neg hfit, if_neg (hsize ▸ hfit)]
      exact ⟨rfl, rfl, hwf, hview⟩

/-- The free slots of a session that is open. -/
def vacant (s : Session) : Nat := if s.closed then 0 else s.queue.slots.length - s.queue.occupied

theorem vacant_of_open {s : Session} (hc : s.closed = false) :
    s.vacant = s.queue.toFifo.free.length := by
  rw [vacant, if_neg (by simp [hc]), SendQueue.toFifo, List.length_map, SendQueue.length_spare]

theorem submit_of_vacant_eq_zero {s : Session} (hv : s.vacant = 0) (build : UInt64 → Command) :
    s.submit build = (none, s) := by
  cases hc : s.closed with
  | true => exact submit_of_closed hc build
  | false =>
    rw [vacant, if_neg (by simp [hc])] at hv
    exact submit_of_full (by omega) build

theorem exists_free {s : Session} (hv : s.vacant ≠ 0) :
    s.closed = false ∧ ∃ buffer free, s.queue.toFifo.free = buffer :: free ∧
      s.vacant = free.length + 1 := by
  cases hc : s.closed with
  | true => exact absurd (by rw [vacant, if_pos hc]) hv
  | false =>
    rw [vacant_of_open hc] at hv ⊢
    obtain ⟨buffer, free, hf⟩ := List.exists_cons_of_length_pos (Nat.pos_of_ne_zero hv)
    exact ⟨rfl, buffer, free, hf, by rw [hf, List.length_cons]⟩

theorem wellFormed_submit {s : Session} (h : s.queue.WellFormed) (build : UInt64 → Command) :
    (s.submit build).2.queue.WellFormed := by
  by_cases hv : s.vacant = 0
  · rw [submit_of_vacant_eq_zero hv]
    exact h
  · obtain ⟨hc, buffer, free, hf, -⟩ := exists_free hv
    exact (submit_spec h hc hf build).2.2.1

theorem slotCapacity_submit {s : Session} (h : s.queue.WellFormed) (build : UInt64 → Command) :
    (s.submit build).2.queue.slotCapacity = s.queue.slotCapacity := by
  by_cases hv : s.vacant = 0
  · rw [submit_of_vacant_eq_zero hv]
  · obtain ⟨hc, buffer, free, hf, -⟩ := exists_free hv
    exact congrArg Fifo.slotCapacity (submit_spec h hc hf build).2.2.2

theorem nextNonce_submit {s : Session} (h : s.queue.WellFormed) (hv : s.vacant ≠ 0)
    (build : UInt64 → Command) : (s.submit build).2.nextNonce = s.nextNonce + 1 := by
  obtain ⟨hc, buffer, free, hf, -⟩ := exists_free hv
  exact (submit_spec h hc hf build).2.1

/-- A request uses up a free slot, whether it is queued or too large. -/
theorem vacant_submit {s : Session} (h : s.queue.WellFormed) (build : UInt64 → Command) :
    (s.submit build).2.vacant = s.vacant - 1 := by
  by_cases hv : s.vacant = 0
  · rw [submit_of_vacant_eq_zero hv, hv]
  · obtain ⟨hc, buffer, free, hf, hn⟩ := exists_free hv
    have hc' : (s.submit build).2.closed = false := (s.submit_frame build).2.2.2.2.trans hc
    rw [vacant_of_open hc', (submit_spec h hc hf build).2.2.2, hn]
    rfl

/-- A request is refused without a free slot or if it does not fit into one. -/
theorem submit_eq {s : Session} (h : s.queue.WellFormed) (build : UInt64 → Command) :
    (s.submit build).1 =
      if s.vacant = 0 ∨ s.queue.slotCapacity < (build s.nextNonce).encode.length then none
      else some (build s.nextNonce) := by
  by_cases hv : s.vacant = 0
  · rw [submit_of_vacant_eq_zero hv, if_pos (Or.inl hv)]
  · obtain ⟨hc, buffer, free, hf, -⟩ := exists_free hv
    rw [(submit_spec h hc hf build).1]
    split
    · rw [if_neg (by omega)]
    · rw [if_pos (by omega)]

/-! ## Several requests -/

/-- What is asked for by any number fits into a slot. -/
def Fits (s : Session) (build : UInt64 → Command) : Prop :=
  ∀ n, (build n).encode.length ≤ s.queue.slotCapacity

/-- A request about a kind of event fits into the smallest slot that a client can
have. -/
theorem fits_of_kind {s : Session} (h : 256 ≤ s.queue.slotCapacity) {build : UInt64 → Command}
    {k : Subscription} (hb : ∀ n, (build n).argument = ("evt", .text k.wireName)) :
    s.Fits build := by
  intro n
  have hlength := Command.length_encode_le (hb n)
  omega

theorem submit_of_fits {s : Session} (h : s.queue.WellFormed) {build : UInt64 → Command}
    (hfit : s.Fits build) (hv : s.vacant ≠ 0) : (s.submit build).1 = some (build s.nextNonce) := by
  have hlen := hfit s.nextNonce
  rw [submit_eq h, if_neg (by omega)]

theorem Fits.submit {s : Session} (h : s.queue.WellFormed) {build : UInt64 → Command}
    (hfit : s.Fits build) (first : UInt64 → Command) : (s.submit first).2.Fits build := by
  intro n
  rw [slotCapacity_submit h]
  exact hfit n

/-- Make some requests one after the other; the result says which are queued. -/
def submitAll (s : Session) : List (UInt64 → Command) → List Bool × Session
  | [] => ([], s)
  | build :: builds =>
    let (queued, s) := s.submit build
    let (answers, s) := s.submitAll builds
    (queued.isSome :: answers, s)

/-- Requests that fit are queued as long as there are free slots. -/
theorem answers_submitAll {s : Session} (h : s.queue.WellFormed)
    {builds : List (UInt64 → Command)} (hfit : ∀ build ∈ builds, s.Fits build) :
    (s.submitAll builds).1 = (List.range builds.length).map fun i => decide (i < s.vacant) := by
  induction builds generalizing s with
  | nil => rfl
  | cons build builds ih =>
    obtain ⟨hfirst, hrest⟩ := List.forall_mem_cons.1 hfit
    have hanswers := ih (wellFormed_submit h build) fun b hb => (hrest b hb).submit h build
    change (s.submit build).1.isSome :: ((s.submit build).2.submitAll builds).1 = _
    rw [hanswers, vacant_submit h, List.length_cons, List.range_succ_eq_map, List.map_cons,
      List.map_map]
    congr 1
    · by_cases hv : s.vacant = 0
      · rw [submit_of_vacant_eq_zero hv, hv]
        rfl
      · rw [submit_of_fits h hfirst hv]
        simp [Nat.pos_of_ne_zero hv]
    · apply List.map_congr_left
      intro i _
      simp only [Function.comp_apply, decide_eq_decide]
      omega

/-- Requests about some kinds are queued as long as there are free slots, with
numbers in a row. -/
theorem queued_submitEach (request : UInt64 → Subscription → Command) {s : Session}
    (h : s.queue.WellFormed) {kinds : List Subscription}
    (hfit : ∀ k ∈ kinds, s.Fits (request · k)) :
    (submitEach (fun s k => s.submit (request · k)) s kinds).1 =
      (kinds.take s.vacant).mapIdx fun i k => request (s.nextNonce + UInt64.ofNat i) k := by
  induction kinds generalizing s with
  | nil =>
    rw [List.take_nil]
    rfl
  | cons k kinds ih =>
    obtain ⟨hfirst, hrest⟩ := List.forall_mem_cons.1 hfit
    have hqueued := ih (wellFormed_submit h (request · k)) fun j hj => (hrest j hj).submit h _
    rw [vacant_submit h] at hqueued
    change (s.submit (request · k)).1.toList ++
      (submitEach (fun s k => s.submit (request · k)) (s.submit (request · k)).2 kinds).1 = _
    by_cases hv : s.vacant = 0
    · rw [submit_of_vacant_eq_zero hv] at hqueued ⊢
      rw [hv] at hqueued ⊢
      exact hqueued
    · obtain ⟨v, hv'⟩ := Nat.exists_eq_succ_of_ne_zero hv
      have hnext : ∀ i, s.nextNonce + 1 + UInt64.ofNat i = s.nextNonce + UInt64.ofNat (i + 1) := by
        intro i
        rw [UInt64.ofNat_add, UInt64.add_assoc, UInt64.add_comm 1]
        rfl
      rw [hqueued, submit_of_fits h hfirst hv, nextNonce_submit h hv, hv', List.take_succ_cons,
        List.mapIdx_cons]
      simp only [hnext]
      exact congrArg (fun n => request n k :: _) (UInt64.add_zero _).symm

/-- What each of some requests keeps, all of them keep. -/
theorem submitEach_keeps {P : Session → Prop}
    {request : Session → Subscription → Option Command × Session}
    (hreq : ∀ s k, P s → P (request s k).2) {s : Session} (h : P s) (kinds : List Subscription) :
    P (submitEach request s kinds).2 := by
  induction kinds generalizing s with
  | nil => exact h
  | cons k kinds ih => exact ih (hreq s k h)

end Session

end PresenceLink
