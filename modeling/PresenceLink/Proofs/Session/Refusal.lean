import PresenceLink.Proofs.Session.Submit

/-!
# What a refused request leaves behind

A request that is refused because the session is shut or no slot is free leaves
no trace. One that is too large has made its reservation before it is refused,
and leaves it abandoned: no message is ever taken for it, but until the consumer
has come past it, it is pending and holds a slot.

* `Fifo.Dropped`, `Fifo.dropped_step`: a reservation that gives no message any
  more;
* `queue_changeAll`: whatever happens to a session is some operations on its
  queue, so `dropped_changeAll` holds;
* `refused_submit`: the traces of a refusal in any session.
-/

namespace PresenceLink

namespace Fifo

/-! ## Reservations without a message -/

/-- No message is taken for a reservation, now or later. -/
def Dropped (f : Fifo) (r : Nat) : Prop :=
  r < f.first ∨ ∃ buffer, f.reservation? r = some ⟨.abandoned, buffer⟩

theorem first_replace (f : Fifo) (r : Nat) (next : Bytes → Reservation) :
    (f.replace r next).first = f.first := by
  unfold replace
  split <;> rfl

theorem first_le_release (f : Fifo) : f.first ≤ f.release.first := by
  unfold release
  split
  · exact Nat.le_refl _
  · exact Nat.le_succ _

theorem first_le_skip (f : Fifo) : f.first ≤ f.skip.first := Nat.le_add_right ..

theorem first_le_step (f : Fifo) (op : SendQueue.Op) : f.first ≤ (f.step op).2.first := by
  cases op with
  | reserve =>
    change f.first ≤ f.reserve.2.first
    unfold reserve
    split <;> exact Nat.le_refl _
  | peek r => exact Nat.le_refl _
  | fill r buffer => exact Nat.le_of_eq (f.first_replace r _).symm
  | write r offset piece =>
    simp only [step]
    split
    · exact Nat.le_of_eq (f.first_replace r _).symm
    · exact Nat.le_refl _
  | commit r length => exact Nat.le_of_eq (f.first_replace r _).symm
  | abandon r => exact Nat.le_of_eq (f.first_replace r _).symm
  | hold =>
    change f.first ≤ f.hold.2.first
    unfold hold
    split
    · exact Nat.le_refl _
    · split <;> exact f.first_le_skip
  | unhold =>
    change f.first ≤ f.unhold.first
    unfold unhold
    split
    · exact f.first_le_release
    · exact Nat.le_refl _

theorem dropped_step {f : Fifo} {r : Nat} (h : f.Dropped r) (op : SendQueue.Op) :
    (f.step op).2.Dropped r := by
  rcases h with h | ⟨buffer, h⟩
  · exact Or.inl (Nat.lt_of_lt_of_le h (f.first_le_step op))
  · rcases reservation?_step h op (fun _ => by simp) with h | h
    · exact Or.inl h
    · exact Or.inr ⟨buffer, h⟩

theorem dropped_of_newest {f f' : Fifo} {buffer : Bytes} (hfirst : f'.first = f.first)
    (hlive : f'.live = f.live ++ [⟨.abandoned, buffer⟩]) :
    f'.Dropped (f.first + f.live.length) := by
  refine Or.inr ⟨buffer, ?_⟩
  rw [reservation?, hfirst, hlive, if_pos (Nat.le_add_right ..), Nat.add_sub_cancel_left,
    List.getElem?_append_right (Nat.le_refl _), Nat.sub_self]
  rfl

/-- A message is taken for the oldest reservation that is not abandoned. -/
theorem hold_ne_of_dropped {f : Fifo} {r : Nat} (h : f.Dropped r) {message : Bytes}
    (hm : f.hold.1 = some message) : f.hold.2.first ≠ r := by
  obtain ⟨hheld, buffer, rest, hlive⟩ := hold_eq_some_iff.1 hm
  have hfirst : f.hold.2.first = f.skip.first := by
    rw [hold, hheld]
    simp only [Bool.false_eq_true, ↓reduceIte]
    split <;> rfl
  rw [hfirst]
  rintro rfl
  rcases h with h | ⟨old, h⟩
  · exact absurd f.first_le_skip (Nat.not_le_of_lt h)
  · rcases reservation?_skip h with h | h
    · exact absurd h (Nat.lt_irrefl _)
    · have hhead : f.skip.reservation? f.skip.first = some ⟨.committed message, buffer⟩ := by
        change f.skip.live = _ at hlive
        rw [reservation?, if_pos (Nat.le_refl _), Nat.sub_self, hlive]
        rfl
      rw [hhead] at h
      cases h

end Fifo

/-- What is no longer open is pending. -/
theorem SendQueue.WellFormed.pending_eq_live {q : SendQueue} (h : q.WellFormed) :
    q.pending = q.toFifo.live.countP fun x => x.stage ≠ .writing := by
  rw [h.pending_eq, toFifo, List.countP_map]
  apply List.countP_congr
  intro s _
  cases hs : s.state <;> simp [Slot.toReservation, hs]

namespace Session

/-! ## Whatever happens to a session -/

/-- What can happen to a session: operations of the embedder, single steps of
producers and consumers that are halfway through theirs, changes of the link,
and anything that happens to the mailbox. -/
inductive Change where
  | act (a : Act)
  | queue (op : SendQueue.Op)
  /-- A producer takes the next number. -/
  | number
  | setConnected (connected : Bool)
  | mailbox (change : Mailbox → Mailbox)

def change (s : Session) : Change → Session
  | .act a => (s.act a).2
  | .queue op => { s with queue := (s.queue.step op).2 }
  | .number => { s with nextNonce := s.nextNonce + 1 }
  | .setConnected connected => s.setConnected connected
  | .mailbox change => { s with mailbox := change s.mailbox }

def changeAll (s : Session) (changes : List Change) : Session := changes.foldl change s

theorem queue_submit (s : Session) (build : UInt64 → Command) :
    ∃ ops, (s.submit build).2.queue = (SendQueue.run SendQueue.step s.queue ops).2 := by
  unfold submit
  split
  · exact ⟨[], rfl⟩
  · cases hr : s.queue.reserve with
    | none => exact ⟨[], rfl⟩
    | some p =>
      obtain ⟨r, queue⟩ := p
      have hreserve : (s.queue.step .reserve).2 = queue := by rw [SendQueue.step, hr]
      let buffer := ((build s.nextNonce).encodeInto ((queue.buffer? r).getD [])).1
      simp only
      split
      · rename_i length _
        refine ⟨[.reserve, .fill r buffer, .commit r length], ?_⟩
        simp only [SendQueue.run, hreserve]
        rfl
      · refine ⟨[.reserve, .fill r buffer, .abandon r], ?_⟩
        simp only [SendQueue.run, hreserve]
        rfl

theorem queue_change (s : Session) (c : Change) :
    ∃ ops, (s.change c).queue = (SendQueue.run SendQueue.step s.queue ops).2 := by
  cases c with
  | act a =>
    cases a with
    | setActivity activity => exact s.queue_submit fun n => .setActivity n s.pid activity
    | subscribe k => exact s.queue_submit fun n => .subscribe n k
    | unsubscribe k => exact s.queue_submit fun n => .unsubscribe n k
    | register k =>
      change ∃ ops, (s.register k).2.queue = _
      unfold register
      split
      · exact ⟨[], rfl⟩
      · split
        · exact ⟨[], rfl⟩
        · exact s.queue_submit fun n => .subscribe n k
    | setSubscriptions subscriptions => exact ⟨[], rfl⟩
    | close => exact ⟨[], rfl⟩
  | queue op => exact ⟨[op], rfl⟩
  | number => exact ⟨[], rfl⟩
  | setConnected connected => exact ⟨[], rfl⟩
  | mailbox change => exact ⟨[], rfl⟩

/-- What every operation on the queue keeps, a session keeps. -/
theorem queue_changeAll {P : SendQueue → Prop} (hstep : ∀ q op, P q → P (q.step op).2)
    {s : Session} (h : P s.queue) (changes : List Change) : P (s.changeAll changes).queue := by
  have hrun : ∀ (ops : List SendQueue.Op) (q : SendQueue), P q →
      P (SendQueue.run SendQueue.step q ops).2 := by
    intro ops
    induction ops with
    | nil => exact fun q h => h
    | cons op ops ih => exact fun q h => ih _ (hstep q op h)
  induction changes generalizing s with
  | nil => exact h
  | cons c changes ih =>
    obtain ⟨ops, hops⟩ := s.queue_change c
    exact ih (by rw [hops]; exact hrun ops s.queue h)

theorem wellFormed_changeAll {s : Session} (h : s.queue.WellFormed) (changes : List Change) :
    (s.changeAll changes).queue.WellFormed :=
  queue_changeAll (P := SendQueue.WellFormed) (fun _ op h => (SendQueue.step_toFifo h op).1) h
    changes

/-- Whatever happens, a reservation without a message stays without one. -/
theorem dropped_changeAll {s : Session} (h : s.queue.WellFormed) {r : Nat}
    (hr : s.queue.toFifo.Dropped r) (changes : List Change) :
    (s.changeAll changes).queue.toFifo.Dropped r := by
  refine (queue_changeAll (P := fun q => q.WellFormed ∧ q.toFifo.Dropped r) ?_ ⟨h, hr⟩ changes).2
  rintro q op ⟨hwf, hq⟩
  obtain ⟨hwf', hstep⟩ := SendQueue.step_toFifo hwf op
  have hdropped := Fifo.dropped_step hq op
  rw [hstep] at hdropped
  exact ⟨hwf', hdropped⟩

/-- No message is ever taken for such a reservation. -/
theorem never_taken {s : Session} (h : s.queue.WellFormed) {r : Nat}
    (hr : s.queue.toFifo.Dropped r) (changes : List Change) {message : Bytes} {queue : SendQueue}
    (hhold : (s.changeAll changes).queue.hold = (some message, queue)) : queue.nextSend ≠ r := by
  have htake := (SendQueue.hold_toFifo (wellFormed_changeAll h changes)).2
  rw [hhold] at htake
  have hne := Fifo.hold_ne_of_dropped (dropped_changeAll h hr changes) (congrArg Prod.fst htake)
  rw [htake] at hne
  exact hne

/-! ## Refusals -/

/-- A request that is too large leaves its reservation abandoned, behind all
others. -/
theorem submit_of_large {s : Session} (h : s.queue.WellFormed) {build : UInt64 → Command}
    (hnone : (s.submit build).1 = none) (hv : s.vacant ≠ 0) :
    s.queue.slotCapacity < (build s.nextNonce).encode.length ∧
      (s.submit build).2.queue.toFifo.first = s.queue.toFifo.first ∧
      ∃ buffer, (s.submit build).2.queue.toFifo.live =
        s.queue.toFifo.live ++ [⟨.abandoned, buffer⟩] := by
  obtain ⟨hc, buffer, free, hf, -⟩ := exists_free hv
  obtain ⟨hanswer, -, -, hview⟩ := submit_spec h hc hf build
  have hsize := h.size_free buffer (by rw [hf]; exact List.mem_cons_self)
  rw [hnone] at hanswer
  split at hanswer
  · cases hanswer
  · rename_i hlarge
    rw [hview]
    refine ⟨Nat.lt_of_not_le hlarge, rfl, (build s.nextNonce).encode.take s.queue.slotCapacity, ?_⟩
    rw [Command.reservation, hsize, if_neg hlarge]

/-- **A refused request is gone, but a slot may be with it.** Without a free slot
in an open session nothing changes. A request that is too large leaves an
abandoned reservation behind all others; it is pending, and no message is ever
taken for it, whatever happens to the session. As long as nothing is taken, the
requests that follow are answered as if one that fits had been queued in its
place. -/
theorem refused_submit (slots slotCapacity : Nat) (pid : UInt32) (changes : List Change)
    (build : UInt64 → Command) :
    let s := (ofSize slots slotCapacity pid).changeAll changes
    let s' := (s.submit build).2
    (s.submit build).1 = none →
      (s.vacant = 0 → s' = s) ∧
      (s.vacant ≠ 0 → s.queue.slotCapacity < (build s.nextNonce).encode.length ∧
        (∃ buffer, s'.queue.toFifo.live = s.queue.toFifo.live ++ [⟨.abandoned, buffer⟩]) ∧
        s'.queue.pending = s.queue.pending + 1 ∧
        ∀ later message queue, (s'.changeAll later).queue.hold = (some message, queue) →
          queue.nextSend ≠ s.queue.nextAdd) ∧
      ∀ builds, (∀ b ∈ builds, s.Fits b) →
        (s.submitAll builds).1 = (List.range builds.length).map (fun i => decide (i < s.vacant)) ∧
        (s'.submitAll builds).1 =
          (List.range builds.length).map (fun i => decide (i + 1 < s.vacant)) := by
  intro s s' hnone
  have hwf : s.queue.WellFormed := wellFormed_changeAll (SendQueue.wellFormed_ofSize ..) changes
  have hwf' : s'.queue.WellFormed := wellFormed_submit hwf build
  refine ⟨fun hv => by simp only [s', submit_of_vacant_eq_zero hv], ?_, ?_⟩
  · intro hv
    obtain ⟨hlarge, hfirst, buffer, hlive⟩ := submit_of_large hwf hnone hv
    have hdropped : s'.queue.toFifo.Dropped s.queue.nextAdd := by
      rw [hwf.nextAdd_toFifo]
      exact Fifo.dropped_of_newest hfirst hlive
    refine ⟨hlarge, ⟨buffer, hlive⟩, ?_, fun later _ _ => never_taken hwf' hdropped later⟩
    rw [hwf'.pending_eq_live, hwf.pending_eq_live, hlive, List.countP_append]
    rfl
  · intro builds hfit
    refine ⟨answers_submitAll hwf hfit, ?_⟩
    rw [answers_submitAll hwf' fun b hb => (hfit b hb).submit hwf build, vacant_submit hwf]
    apply List.map_congr_left
    intro i _
    rw [decide_eq_decide]
    omega

/-- A presence that no slot of 256 octets has room for. -/
def longPresence : Presence := { details := some (String.ofList (List.replicate 300 'x')) }

theorem submit_longPresence {s : Session} (h : s.queue.WellFormed)
    (hsize : s.queue.slotCapacity ≤ 256) :
    (s.submit fun n => .setActivity n 7 (some longPresence)).1 = none := by
  have hlength := Command.length_details_le (p := longPresence) rfl s.nextNonce 7
  rw [String.toList_ofList, List.length_replicate] at hlength
  rw [submit_eq h, if_pos (Or.inr (by omega))]

/-- Two free slots, of which a presence that is too large leaves one. -/
theorem refused_longPresence :
    let s := (ofSize 2 256 7).changeAll []
    let large : UInt64 → Command := fun n => .setActivity n 7 (some longPresence)
    let builds : List (UInt64 → Command) := [(.subscribe · .joinGame), (.subscribe · .spectateGame)]
    (s.submit large).1 = none ∧ s.vacant ≠ 0 ∧ (∀ b ∈ builds, s.Fits b) ∧
      (s.submit large).2.queue.pending = s.queue.pending + 1 ∧
      ((s.submit large).2.submitAll builds).1 =
        (List.range builds.length).map fun i => decide (i + 1 < s.vacant) := by
  intro s large builds
  have hnone : (s.submit large).1 = none :=
    submit_longPresence (SendQueue.wellFormed_ofSize ..) (by decide)
  have hvacant : s.vacant ≠ 0 := by decide
  have hfit : ∀ b ∈ builds, s.Fits b := by
    simp only [builds, List.forall_mem_cons]
    exact ⟨fits_of_kind (by decide) fun _ => rfl, fits_of_kind (by decide) fun _ => rfl, by simp⟩
  obtain ⟨-, hlarge, hanswers⟩ := refused_submit 2 256 7 [] large hnone
  exact ⟨hnone, hvacant, hfit, (hlarge hvacant).2.2.1, (hanswers builds hfit).2⟩

/-- A presence that is too large takes the last slot with it. -/
theorem longPresence_takes_last_slot :
    let s := ofSize 1 256 7
    let large : UInt64 → Command := fun n => .setActivity n 7 (some longPresence)
    let builds : List (UInt64 → Command) := [(.subscribe · .joinGame)]
    (s.submit large).1 = none ∧ (∀ b ∈ builds, s.Fits b) ∧ (s.submitAll builds).1 = [true] ∧
      ((s.submit large).2.submitAll builds).1 = [false] := by
  intro s large builds
  have hwf : s.queue.WellFormed := SendQueue.wellFormed_ofSize ..
  have hfit : ∀ b ∈ builds, s.Fits b := by
    simp only [builds, List.forall_mem_cons]
    exact ⟨fits_of_kind (by decide) fun _ => rfl, by simp⟩
  refine ⟨submit_longPresence hwf (by decide), hfit, ?_, ?_⟩
  · rw [answers_submitAll hwf hfit]
    rfl
  · rw [answers_submitAll (wellFormed_submit hwf large) fun b hb => (hfit b hb).submit hwf large,
      vacant_submit hwf]
    rfl

end Session

end PresenceLink
