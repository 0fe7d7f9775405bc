import PresenceLink.Proofs.Client.FrameLimit
import PresenceLink.Proofs.Client.Shutdown

/-!
# Which requests are accepted

A request is accepted if the session is open, a slot is empty and the request
fits into a slot. Which slots are empty depends on all that has happened to the
session; how many there are and how large they are does not. A client has at
least one slot, and requests without a presence fit into every slot that it can
have.

* `WellFormed.inUse_eq`: the count of taken slots is right at any time;
* `accepted_iff`: which requests are accepted in any session;
* `Becomes`, `becomes_useAll`: a client does nothing to its session but what can
  happen to any session;
* `accepted_by_room`: which requests are accepted, in any session and by any
  client.
-/

namespace PresenceLink

namespace SendQueue

/-- The slots that are reserved, committed or abandoned. -/
def inUse (q : SendQueue) : Nat := q.slots.countP fun s => s.state ≠ .empty

/-- The count of taken slots is right. -/
theorem WellFormed.inUse_eq {q : SendQueue} (h : q.WellFormed) : q.inUse = q.occupied := by
  have htaken : (q.taken.countP fun s => s.state ≠ .empty) = q.taken.length :=
    List.countP_eq_length.2 fun s hs => by simpa using h.taken_ne s hs
  have hspare : (q.spare.countP fun s => s.state ≠ .empty) = 0 :=
    List.countP_eq_zero.2 fun s hs => by simpa using h.spare_eq s hs
  rw [inUse, countP_slots, htaken, hspare, h.length_taken, Nat.add_zero]

end SendQueue

/-- Requests that carry no presence. -/
inductive Command.Bare : (UInt64 → Command) → Prop
  | subscribe (k : Subscription) : Bare (.subscribe · k)
  | unsubscribe (k : Subscription) : Bare (.unsubscribe · k)
  | clear (pid : UInt32) : Bare (.setActivity · pid none)

/-- Such requests are short. -/
theorem Command.Bare.length_le {build : UInt64 → Command} (h : Bare build) (n : UInt64) :
    (build n).encode.length ≤ 100 := by
  cases h with
  | subscribe k => exact length_encode_le (k := k) rfl
  | unsubscribe k => exact length_encode_le (k := k) rfl
  | clear pid =>
    have hnull : (activityJson none).render.length = 4 := by decide
    have hlength := length_encode_setActivity_le n pid none
    rw [hnull] at hlength
    exact Nat.le_trans hlength (by decide)

namespace Session

/-! ## Any session -/

/-- A request is accepted in an open session with an empty slot that it fits
into. -/
theorem accepted_iff {s : Session} (h : s.queue.WellFormed) (build : UInt64 → Command) :
    (s.submit build).1.isSome = true ↔ s.closed = false ∧ s.queue.inUse < s.queue.capacity ∧
      (build s.nextNonce).encode.length ≤ s.queue.slotCapacity := by
  have hvacant : s.vacant ≠ 0 ↔ s.closed = false ∧ s.queue.inUse < s.queue.capacity := by
    rw [vacant, h.inUse_eq, SendQueue.capacity]
    cases s.closed with
    | true => simp
    | false => simp [Nat.sub_eq_zero_iff_le]
  rw [submit_eq h, ← and_assoc, ← hvacant]
  split
  · simp only [Option.isSome_none, Bool.false_eq_true, false_iff]
    omega
  · simp only [Option.isSome_some, true_iff]
    omega

/-- In a closed session and without an empty slot a request leaves no trace. -/
theorem submit_of_no_room {s : Session} (h : s.queue.WellFormed)
    (hs : s.closed = true ∨ s.queue.capacity ≤ s.queue.inUse) (build : UInt64 → Command) :
    s.submit build = (none, s) := by
  rcases hs with hclosed | hfull
  · exact submit_of_closed hclosed build
  · rw [h.inUse_eq] at hfull
    exact submit_of_full hfull build

/-- A session has the slots that it was made with. -/
theorem room_changeAll (slots slotCapacity : Nat) (pid : UInt32) (changes : List Change) :
    let s := (ofSize slots slotCapacity pid).changeAll changes
    s.queue.WellFormed ∧ s.queue.capacity = Nat.max slots 1 ∧
      s.queue.slotCapacity = Nat.max slotCapacity 1 := by
  intro s
  have hwf : (ofSize slots slotCapacity pid).queue.WellFormed := SendQueue.wellFormed_ofSize ..
  have hbounds := bounds_changeAll hwf changes
  rw [SendQueue.bounds_toFifo, SendQueue.bounds_toFifo] at hbounds
  have hcapacity : (ofSize slots slotCapacity pid).queue.capacity = Nat.max slots 1 :=
    List.length_replicate ..
  exact ⟨wellFormed_changeAll hwf changes, (congrArg Prod.fst hbounds).trans hcapacity,
    congrArg Prod.snd hbounds⟩

/-! ## What a client does to its session -/

/-- A session becomes another one by some changes. -/
def Becomes (s s' : Session) : Prop := ∃ changes, s.changeAll changes = s'

namespace Becomes

variable {s s' s'' : Session}

theorem refl (s : Session) : s.Becomes s := ⟨[], rfl⟩

theorem trans (h : s.Becomes s') (h' : s'.Becomes s'') : s.Becomes s'' := by
  obtain ⟨changes, rfl⟩ := h
  obtain ⟨more, rfl⟩ := h'
  exact ⟨changes ++ more, List.foldl_append ..⟩

theorem change (s : Session) (c : Change) : s.Becomes (s.change c) := ⟨[c], rfl⟩

theorem act (s : Session) (a : Act) : s.Becomes (s.act a).2 := change s (.act a)

theorem subscribeEach (s : Session) (kinds : List Subscription) :
    s.Becomes (submitEach subscribe s kinds).2 :=
  submitEach_keeps (P := s.Becomes) (fun t k h => h.trans (act t (.subscribe k))) (refl s) kinds

theorem unsubscribeEach (s : Session) (kinds : List Subscription) :
    s.Becomes (submitEach unsubscribe s kinds).2 :=
  submitEach_keeps (P := s.Becomes) (fun t k h => h.trans (act t (.unsubscribe k))) (refl s) kinds

theorem resubscribe (s : Session) (next : Subscriptions) : s.Becomes (s.resubscribe next).2 := by
  have hset : s.Becomes (s.setSubscriptions next) := act s (.setSubscriptions next)
  unfold Session.resubscribe
  dsimp only
  split
  · exact hset.trans ((subscribeEach _ _).trans (unsubscribeEach _ _))
  · exact hset

theorem drain {message : Option Bytes} (hd : s.drain = (message, s')) : s.Becomes s' := by
  obtain ⟨hq, hs'⟩ := drain_frame hd
  rw [hs']
  unfold SendQueue.drain at hq
  cases hhold : s.queue.hold with
  | mk held queue =>
    have hstep : (s.queue.step .hold).2 = queue := congrArg Prod.snd hhold
    rw [hhold] at hq
    cases held with
    | none =>
      have hqueue : queue = s'.queue := congrArg Prod.snd hq
      have hdone := change s (.queue .hold)
      rwa [Session.change, hstep, hqueue] at hdone
    | some held =>
      have hqueue : queue.unhold = s'.queue := congrArg Prod.snd hq
      have hdone := (change s (.queue .hold)).trans (change _ (.queue .unhold))
      rw [Session.change, Session.change, hstep] at hdone
      rwa [← hqueue]

theorem make (s : Session) (request : Request) : s.Becomes (s.make request).2 := by
  cases request with
  | updatePresence p => exact act s (.setActivity (some p))
  | clearPresence => exact act s (.setActivity none)
  | register k => exact act s (.register k)

end Becomes

end Session

theorem Supervisor.becomes_tick {τ : Type} [Transport τ] (s : Supervisor (Recorded τ))
    (now : Instant) : s.session.Becomes (s.tick now).session := by
  have hadvance : s.session.Becomes (s.advance now).supervisor.session := by
    refine session_advance (P := s.session.Becomes) ?_ ?_ (fun h hd => h.trans (.drain hd))
      (.refl _) now
    · intro session h
      exact h.trans ((Session.Becomes.change session (.setConnected true)).trans
        (.subscribeEach _ _))
    · intro session h
      exact h.trans (.change session (.setConnected false))
  exact hadvance.trans (.change _ (.mailbox fun m => m.publishAll (s.advance now).events))

namespace Client

variable {τ α : Type} [Transport τ]

theorem becomes_perform (c : Client (Recorded τ) α) (op : Op τ α) :
    c.session.Becomes (c.perform op).2.session := by
  cases op with
  | act a =>
    cases a with
    | updateHandlers handlers =>
      change c.session.Becomes (c.updateHandlers handlers).session
      cases hc : c.session.closed with
      | true =>
        rw [updateHandlers_of_closed hc]
        exact .refl _
      | false =>
        rw [updateHandlers_of_open hc]
        exact .resubscribe _ _
    | updateConnection now =>
      change c.session.Becomes (c.updateConnection now).session
      unfold updateConnection
      split
      · exact c.supervisor.becomes_tick now
      · exact .refl _
    | updatePresence p => exact .make _ (.updatePresence p)
    | clearPresence => exact .make _ .clearPresence
    | runCallbacks => exact .change _ (.mailbox fun m => (c.handlers.run m).2)
    | world change => exact .refl _
  | register k => exact .make _ (.register k)
  | shutdown =>
    change c.session.Becomes c.shutdown.session
    by_cases hengine : c.engine = .stopped
    · rw [shutdown_of_stopped hengine]
      exact .refl _
    · rw [shutdown_of_running hengine]
      exact ((Session.Becomes.act _ (.setSubscriptions .empty)).trans (.act _ .close)).trans
        (.change _ (.setConnected false))

/-- Whatever is done with a client can happen to any session. -/
theorem becomes_useAll (c : Client (Recorded τ) α) (uses : List (Use τ α)) :
    c.session.Becomes (c.useAll uses).2.session := by
  induction uses generalizing c with
  | nil => exact .refl _
  | cons u uses ih =>
    have hu : c.session.Becomes (c.use u).2.session := by
      cases u with
      | client op => exact c.becomes_perform op
      | handle request => exact .make _ request
    exact hu.trans (ih _)

/-- The session of a client is one of a size that its configuration tells. -/
theorem session_useAll {t : τ} {config : Config} {handlers : Handlers α} {pid : UInt32}
    {now : Instant} {c : Client (Recorded τ) α}
    (hs : start (.ofTransport t) config handlers pid now = .ok c) (uses : List (Use τ α)) :
    (Session.ofSize config.queueSlots config.slotCapacity (config.processId.getD pid)).Becomes
      (c.useAll uses).2.session := by
  obtain ⟨-, rfl⟩ := start_eq_ok_iff.1 hs
  have hfresh : (Session.ofSize config.queueSlots config.slotCapacity
      (config.processId.getD pid)).Becomes
        (fresh (Recorded.ofTransport t) config handlers pid now).session :=
    .act _ (.setSubscriptions handlers.subscriptions)
  exact hfresh.trans (becomes_useAll _ uses)

/-- **Requests are accepted as there is room.** Whatever has happened to a session,
a request is accepted if and only if the session is open, a slot is empty and
the request fits into a slot; in a closed session and without an empty slot it
leaves no trace. The session of a client is one of these, with at least one slot
of at least 256 octets, however the client is configured. So a request without a
presence fits into its slots, whatever its number and process, and is only
refused if the client is shut down or all slots are taken. -/
theorem accepted_by_room :
    (∀ (slots slotCapacity : Nat) (pid : UInt32) (changes : List Session.Change)
      (build : UInt64 → Command),
      let s := (Session.ofSize slots slotCapacity pid).changeAll changes
      s.queue.capacity = Nat.max slots 1 ∧ s.queue.slotCapacity = Nat.max slotCapacity 1 ∧
      ((s.submit build).1.isSome = true ↔
        s.closed = false ∧ s.queue.inUse < s.queue.capacity ∧
          (build s.nextNonce).encode.length ≤ s.queue.slotCapacity) ∧
      (s.closed = true ∨ s.queue.inUse = s.queue.capacity → s.submit build = (none, s))) ∧
    ∀ (t : τ) (config : Config) (handlers : Handlers α) (pid : UInt32) (now : Instant)
      (c : Client (Recorded τ) α), start (.ofTransport t) config handlers pid now = .ok c →
      ∀ (uses : List (Use τ α)) (changes : List Session.Change),
      let s := (c.useAll uses).2.session.changeAll changes
      (Session.ofSize config.queueSlots config.slotCapacity (config.processId.getD pid)).Becomes
        s ∧
      1 ≤ s.queue.capacity ∧ 256 ≤ s.queue.slotCapacity ∧
      ∀ build, Command.Bare build →
        (∀ n, (build n).encode.length ≤ s.queue.slotCapacity) ∧
        ((s.submit build).1.isSome = true ↔
          s.closed = false ∧ s.queue.inUse < s.queue.capacity) := by
  constructor
  · intro slots slotCapacity pid changes build s
    obtain ⟨hwf, hcapacity, hsize⟩ := Session.room_changeAll slots slotCapacity pid changes
    exact ⟨hcapacity, hsize, Session.accepted_iff hwf build,
      fun hs => Session.submit_of_no_room hwf (hs.imp_right fun h => Nat.le_of_eq h.symm) build⟩
  · intro t config handlers pid now c hs uses changes s
    have hs : (Session.ofSize config.queueSlots config.slotCapacity
        (config.processId.getD pid)).Becomes s := (session_useAll hs uses).trans ⟨changes, rfl⟩
    obtain ⟨before, hbefore⟩ := hs
    obtain ⟨hwf, hcapacity, hsize⟩ := Session.room_changeAll config.queueSlots config.slotCapacity
      (config.processId.getD pid) before
    rw [hbefore] at hwf hcapacity hsize
    have hlarge : 256 ≤ s.queue.slotCapacity := by
      rw [hsize]
      exact Nat.le_trans (Nat.le_max_right config.maxMessageSize 256) (Nat.le_max_left ..)
    refine ⟨⟨before, hbefore⟩, hcapacity ▸ Nat.le_max_right .., hlarge, fun build hb => ?_⟩
    have hfit : ∀ n, (build n).encode.length ≤ s.queue.slotCapacity := fun n =>
      Nat.le_trans (hb.length_le n) (Nat.le_trans (by decide) hlarge)
    refine ⟨hfit, ?_⟩
    rw [Session.accepted_iff hwf build]
    exact ⟨fun h => ⟨h.1, h.2.1⟩, fun h => ⟨h.1, h.2, hfit _⟩⟩

/-- A configuration without slots and with no room for messages: the presence can
be cleared once, and then all slots are taken. A session with slots of ten octets
accepts no request. -/
theorem accepted_by_room_of_bare_config :
    let config : Config :=
      { Config.ofApplicationId "1" with drive := .manual, queueSlots := 0, maxMessageSize := 1 }
    (∃ c, start (.ofTransport ({} : Script)) config ({} : Handlers Unit) 7 .zero = .ok c ∧
      (c.session.submit (.setActivity · 7 none)).1.isSome = true ∧
      ¬ ((c.useAll [.client (.act .clearPresence)]).2.session.submit
        (.setActivity · 7 none)).1.isSome = true) ∧
    ¬ ((Session.ofSize 2 10 7).submit (.setActivity · 7 none)).1.isSome = true := by
  intro config
  let c := fresh (Recorded.ofTransport ({} : Script)) config ({} : Handlers Unit) 7 .zero
  have hvalid : config.validate = none := by decide +kernel
  have hs : start (.ofTransport ({} : Script)) config ({} : Handlers Unit) 7 .zero = .ok c :=
    start_eq_ok_iff.2 ⟨hvalid, rfl⟩
  obtain ⟨hsession, hclient⟩ := accepted_by_room (τ := Script) (α := Unit)
  refine ⟨⟨c, hs, ?_, ?_⟩, ?_⟩
  · obtain ⟨-, -, -, hroom⟩ := hclient _ config _ 7 .zero c hs [] []
    exact (hroom _ (.clear 7)).2.2 (by decide +kernel)
  · obtain ⟨-, -, -, hroom⟩ := hclient _ config _ 7 .zero c hs [.client (.act .clearPresence)] []
    intro haccepted
    exact absurd ((hroom _ (.clear 7)).2.1 haccepted).2 (by decide +kernel)
  · obtain ⟨-, -, hroom, -⟩ := hsession 2 10 7 [] (.setActivity · 7 none)
    intro haccepted
    exact absurd (hroom.1 haccepted).2.2 (by decide +kernel)

end Client

end PresenceLink
