import PresenceLink.Proofs.Client.Announced
import PresenceLink.Proofs.Client.Shutdown

/-!
# The requests that follow the handlers

The session of a client has the kinds that its handlers handle. It asks for them
when the link comes up, and for the difference when the handlers are replaced on
a link that is up. With enough free slots these requests, and no others, are
queued behind all that waits, with numbers in a row.

* `numbered`: requests with numbers in a row;
* `submitEach_spec`, `announce_spec`, `resubscribe_spec`: what is queued with
  enough free slots;
* `resubscribe_of_down`: nothing is queued on a link that is down;
* `requests_follow_handlers`: the requests of any client, at any time.
-/

namespace PresenceLink

/-- The commands that are built for numbers in a row. -/
def Command.numbered : UInt64 → List (UInt64 → Command) → List Command
  | _, [] => []
  | n, build :: builds => build n :: numbered (n + 1) builds

theorem Command.add_ofNat_succ (n : UInt64) (i : Nat) :
    n + 1 + UInt64.ofNat i = n + UInt64.ofNat (i + 1) := by
  rw [UInt64.ofNat_add, UInt64.add_assoc, UInt64.add_comm 1]
  rfl

theorem Command.numbered_append (n : UInt64) (builds more : List (UInt64 → Command)) :
    numbered n (builds ++ more) =
      numbered n builds ++ numbered (n + UInt64.ofNat builds.length) more := by
  induction builds generalizing n with
  | nil => exact congrArg (numbered · more) (UInt64.add_zero n).symm
  | cons build builds ih =>
    rw [List.cons_append, numbered, ih, add_ofNat_succ]
    rfl

namespace Session

/-! ## What is queued with enough free slots -/

/-- Requests about some kinds, with a free slot for each of them. -/
theorem submitEach_spec (request : UInt64 → Subscription → Command) {s : Session}
    (h : s.queue.WellFormed) {kinds : List Subscription}
    (hfit : ∀ k ∈ kinds, s.Fits (request · k)) (hroom : kinds.length ≤ s.vacant) :
    let after := submitEach (fun s k => s.submit (request · k)) s kinds
    after.1 = Command.numbered s.nextNonce (kinds.map fun k n => request n k) ∧
      after.2.nextNonce = s.nextNonce + UInt64.ofNat kinds.length ∧
      after.2.vacant = s.vacant - kinds.length := by
  intro after
  induction kinds generalizing s with
  | nil => exact ⟨rfl, (UInt64.add_zero _).symm, rfl⟩
  | cons k kinds ih =>
    rw [List.length_cons] at hroom
    obtain ⟨hfirst, hrest⟩ := List.forall_mem_cons.1 hfit
    have hqueued := submit_of_fits h hfirst (by omega)
    have hnonce := nextNonce_submit h (by omega) (request · k)
    have hvacant := vacant_submit h (request · k)
    obtain ⟨hqueued', hnonce', hvacant'⟩ := ih (wellFormed_submit h (request · k))
      (fun j hj => (hrest j hj).submit h _) (by omega)
    rw [hnonce] at hqueued' hnonce'
    rw [hvacant] at hvacant'
    refine ⟨?_, ?_, ?_⟩
    · change (s.submit (request · k)).1.toList ++
        (submitEach (fun s k => s.submit (request · k)) (s.submit (request · k)).2 kinds).1 = _
      rw [hqueued, hqueued']
      rfl
    · rw [List.length_cons, ← Command.add_ofNat_succ]
      exact hnonce'
    · rw [List.length_cons, Nat.add_comm, ← Nat.sub_sub]
      exact hvacant'

/-- Requests about kinds fit into the slots. -/
theorem Spacious.fits {s : Session} (h : s.Spacious) {request : UInt64 → Subscription → Command}
    (hb : ∀ n k, (request n k).argument = ("evt", .text k.wireName)) (kinds : List Subscription) :
    ∀ k ∈ kinds, s.Fits (request · k) := fun _ _ => fits_of_kind h.size fun n => hb n _

/-- When a link comes up, every kind is subscribed to. -/
theorem announce_spec {s : Session} (h : s.Spacious)
    (hroom : s.subscriptions.toList.length ≤ s.vacant) :
    s.announce.1 =
      Command.numbered s.nextNonce (s.subscriptions.toList.map fun k n => .subscribe n k) :=
  (submitEach_spec .subscribe h.queue (h.fits (fun _ _ => rfl) _) hroom).1

/-- When the kinds are replaced on a link that is up, the new ones are subscribed
to, and then those that are gone are unsubscribed from. -/
theorem resubscribe_spec {s : Session} (h : s.Spacious) (hup : s.connected = true)
    (next : Subscriptions) :
    let added := (next.diff s.subscriptions).toList
    let dropped := (s.subscriptions.diff next).toList
    added.length + dropped.length ≤ s.vacant →
      (s.resubscribe next).1 = Command.numbered s.nextNonce
        ((added.map fun k n => .subscribe n k) ++ dropped.map fun k n => .unsubscribe n k) := by
  intro added dropped hroom
  have hup' : (s.setSubscriptions next).connected = true := hup
  have hvacant : (s.setSubscriptions next).vacant = s.vacant := rfl
  have hset : (s.setSubscriptions next).Spacious := ⟨h.queue, h.size⟩
  obtain ⟨hfirst, hnonce, hleft⟩ := submitEach_spec .subscribe hset.queue
    (hset.fits (fun _ _ => rfl) added) (by rw [hvacant]; omega)
  generalize hbetween : submitEach (fun s k => s.submit (Command.subscribe · k))
    (s.setSubscriptions next) added = between at hfirst hnonce hleft
  have hspacious : between.2.Spacious := by
    rw [← hbetween]
    exact submitEach_keeps (P := Spacious) (fun _ _ h => h.submit _) hset _
  obtain ⟨hsecond, -, -⟩ := submitEach_spec .unsubscribe hspacious.queue
    (hspacious.fits (fun _ _ => rfl) dropped) (by rw [hleft, hvacant]; omega)
  rw [hnonce] at hsecond
  have hboth : (s.resubscribe next).1 = between.1 ++
      (submitEach (fun s k => s.submit (Command.unsubscribe · k)) between.2 dropped).1 := by
    rw [resubscribe, if_pos hup', ← hbetween]
    rfl
  rw [hboth, hfirst, hsecond, Command.numbered_append, List.length_map]
  rfl

/-- On a link that is down the kinds are replaced without a word. -/
theorem resubscribe_of_down {s : Session} (hdown : s.connected = false) (next : Subscriptions) :
    s.resubscribe next = ([], { s with subscriptions := next }) := by
  have hdown' : ¬ (s.setSubscriptions next).connected = true := by simp [setSubscriptions, hdown]
  rw [resubscribe, if_neg hdown']
  rfl

end Session

/-! ## Any client -/

namespace Client

variable {τ α : Type} [Transport τ]

theorem announcing_useAll {t : τ} {config : Config} {handlers : Handlers α} {pid : UInt32}
    {now : Instant} {c : Client (Recorded τ) α}
    (hs : start (.ofTransport t) config handlers pid now = .ok c) (uses : List (Use τ α)) :
    ∃ commands missed, (c.useAll uses).2.Announcing commands missed := by
  rw [useAll_eq_performAll]
  exact ⟨_, _, announcing_performAll (announcing_start hs) _⟩

omit [Transport τ] in
/-- The kinds of a set of handlers, in the order in which kinds are announced. -/
theorem toList_subscriptions (h : Handlers α) :
    h.subscriptions.toList = Subscription.all.filter h.handles := by
  rw [Subscriptions.toList, funext h.contains_subscriptions]

omit [Transport τ] in
theorem toList_diff_subscriptions (h h' : Handlers α) :
    (h.subscriptions.diff h'.subscriptions).toList =
      Subscription.all.filter fun k => h.handles k && !h'.handles k := by
  have hcontains : (h.subscriptions.diff h'.subscriptions).contains =
      fun k => h.handles k && !h'.handles k := by
    funext k
    rw [Subscriptions.contains_diff, h.contains_subscriptions, h'.contains_subscriptions]
  rw [Subscriptions.toList, hcontains]

namespace Announcing

variable {c : Client (Recorded τ) α} {commands : List Command} {missed : List Subscription}

/-- A tick that brings the link up does nothing else to the queue than to announce
the kinds. -/
theorem queue_of_comesUp (h : c.Announcing commands missed) {now : Instant}
    (hup : c.ComesUp (c.updateConnection now)) :
    c.engine = .manual ∧ (c.updateConnection now).session.queue =
      (c.session.setConnected true).announce.2.queue := by
  have hengine : c.engine = .manual := by
    by_contra hne
    rw [updateConnection_of_not_manual hne] at hup
    exact absurd hup.2 (by simp [hup.1])
  have htick : c.updateConnection now = { c with supervisor := c.supervisor.tick now } := by
    rw [Client.updateConnection, hengine]
  rw [htick] at hup ⊢
  refine ⟨hengine, ?_⟩
  have hdown : c.supervisor.session.connected = false := hup.1
  have hnext : (c.supervisor.advance now).supervisor.session.connected = true := hup.2
  obtain ⟨-, hlink⟩ := Supervisor.linkStep_advance h.orderly h.synced now
  cases hlink with
  | down hflags =>
    rw [(Session.of_flags hflags).2.1] at hnext
    cases hnext
  | up _ _ hsession _ =>
    have hqueue := congrArg Session.queue hsession
    exact hqueue
  | stays hstays =>
    rw [hdown] at hstays
    cases hstays

/-- A tick that brings the link up asks for every handled kind. -/
theorem messages_of_comesUp (h : c.Announcing commands missed) {now : Instant}
    (hup : c.ComesUp (c.updateConnection now)) :
    let kinds := Subscription.all.filter c.handlers.handles
    kinds.length ≤ c.session.vacant →
      (c.updateConnection now).session.queue.messages = c.session.queue.messages ++
        (Command.numbered c.session.nextNonce (kinds.map fun k n => .subscribe n k)).map
          Command.encode := by
  intro kinds hroom
  obtain ⟨hengine, hqueue⟩ := h.queue_of_comesUp hup
  have hopen : c.session.closed = false := by
    cases hc : c.session.closed with
    | false => rfl
    | true =>
      rw [(h.closed hc).2] at hengine
      cases hengine
  have hkinds : c.session.subscriptions.toList = kinds := by
    rw [h.handled hopen, toList_subscriptions]
  have hspacious : (c.session.setConnected true).Spacious := ⟨h.spacious.queue, h.size⟩
  have hcommands : (c.session.setConnected true).announce.1 =
      Command.numbered c.session.nextNonce (kinds.map fun k n => .subscribe n k) := by
    rw [← hkinds] at hroom ⊢
    exact Session.announce_spec hspacious hroom
  have horderly : (c.session.setConnected true).Orderly := ⟨h.orderly.idle, h.orderly.nextNonce⟩
  rw [hqueue, (Session.Queues.announce horderly).messages, hcommands]
  rfl

omit [Transport τ] in
/-- New handlers on a link that is up: the peer is asked for the difference. -/
theorem messages_updateHandlers (h : c.Announcing commands missed) (hup : c.isConnected = true)
    (next : Handlers α) :
    let added := Subscription.all.filter fun k => next.handles k && !c.handlers.handles k
    let dropped := Subscription.all.filter fun k => c.handlers.handles k && !next.handles k
    added.length + dropped.length ≤ c.session.vacant →
      (c.updateHandlers next).session.queue.messages = c.session.queue.messages ++
        (Command.numbered c.session.nextNonce
          ((added.map fun k n => .subscribe n k) ++ dropped.map fun k n => .unsubscribe n k)).map
            Command.encode := by
  intro added dropped hroom
  have hopen := h.opened hup
  have hadded : (next.subscriptions.diff c.session.subscriptions).toList = added := by
    rw [h.handled hopen, toList_diff_subscriptions]
  have hdropped : (c.session.subscriptions.diff next.subscriptions).toList = dropped := by
    rw [h.handled hopen, toList_diff_subscriptions]
  have hqueued := Session.resubscribe_spec h.spacious hup next.subscriptions
  simp only [hadded, hdropped] at hqueued
  rw [updateHandlers_of_open hopen]
  change (c.session.resubscribe next.subscriptions).2.queue.messages = _
  rw [(Session.Queues.resubscribe h.orderly next.subscriptions).messages, hqueued hroom]

end Announcing

/-- **Requests follow the handlers.** At any time the kinds of the session are
those that the handlers handle. If enough slots are free, a link that comes up
has a subscription to each of these kinds queued behind all that waits, in the
order of the kinds; and new handlers on a link that is up have the kinds that are
new subscribed to and then those that are gone unsubscribed from, and no other
kind mentioned. The requests have numbers in a row, from the next one on. New
handlers on a link that is down are installed with their kinds, and nothing else
changes; after a shutdown nothing changes at all. -/
theorem requests_follow_handlers (t : τ) (config : Config) (handlers : Handlers α) (pid : UInt32)
    (now : Instant) {c : Client (Recorded τ) α}
    (hs : start (.ofTransport t) config handlers pid now = .ok c) (uses : List (Use τ α)) :
    let r := (c.useAll uses).2
    r.session.subscriptions = r.handlers.subscriptions ∧
    (∀ later, r.ComesUp (r.updateConnection later) →
      let kinds := Subscription.all.filter r.handlers.handles
      kinds.length ≤ r.session.vacant →
        (r.updateConnection later).session.queue.messages = r.session.queue.messages ++
          (Command.numbered r.session.nextNonce (kinds.map fun k n => .subscribe n k)).map
            Command.encode) ∧
    (∀ next, r.isConnected = true →
      let added := Subscription.all.filter fun k => next.handles k && !r.handlers.handles k
      let dropped := Subscription.all.filter fun k => r.handlers.handles k && !next.handles k
      added.length + dropped.length ≤ r.session.vacant →
        (r.updateHandlers next).session.queue.messages = r.session.queue.messages ++
          (Command.numbered r.session.nextNonce
            ((added.map fun k n => .subscribe n k) ++ dropped.map fun k n => .unsubscribe n k)).map
              Command.encode) ∧
    (∀ next, r.isConnected = false → .client .shutdown ∉ uses →
      r.updateHandlers next = { r with
        handlers := next,
        supervisor := { r.supervisor with
          session := { r.session with subscriptions := next.subscriptions } } }) ∧
    ∀ next, .client .shutdown ∈ uses → r.updateHandlers next = r := by
  intro r
  obtain ⟨commands, missed, h⟩ := announcing_useAll hs uses
  obtain ⟨-, hfresh⟩ := start_eq_ok_iff.1 hs
  have hrunning : c.engine ≠ .stopped := by
    rw [hfresh]
    exact engine_fresh _ config handlers pid now
  have hopened : c.session.closed = false := by
    rw [hfresh]
    rfl
  refine ⟨?_, fun later hup => h.messages_of_comesUp hup,
    fun next hup => h.messages_updateHandlers hup next, ?_, ?_⟩
  · by_cases hm : .client .shutdown ∈ uses
    · have hshut : r.Shut := shut_of_shutdown hrunning hm
      rw [hshut.unsubscribed, hshut.handlers]
      rfl
    · exact h.handled ((open_useAll c hm).1.trans hopened)
  · intro next hdown hm
    rw [updateHandlers_of_open ((open_useAll c hm).1.trans hopened),
      Session.resubscribe_of_down hdown]
  · intro next hm
    exact updateHandlers_of_closed (shut_of_shutdown hrunning hm).closed next

/-- One handler when the link comes up, and then another one in its place. -/
theorem requests_follow_replaced_handler :
    let now : Instant := .zero
    let config := ((Config.ofApplicationId "1").withDrive .manual).withMaxMessageSize 256
    let next : Handlers Unit := { spectateGame := some fun _ => () }
    ∃ c, start (.ofTransport ({} : Script)) config { joinGame := some fun _ => () } 1 now = .ok c ∧
      c.ComesUp (c.updateConnection now) ∧
      (c.updateConnection now).session.queue.messages = [(Command.subscribe 1 .joinGame).encode] ∧
      ((c.updateConnection now).updateHandlers next).session.queue.messages =
        [(Command.subscribe 1 .joinGame).encode, (Command.subscribe 2 .spectateGame).encode,
          (Command.unsubscribe 3 .joinGame).encode] ∧
      (c.updateConnection now).shutdown.updateHandlers next = (c.updateConnection now).shutdown := by
  intro now config next
  let handlers : Handlers Unit := { joinGame := some fun _ => () }
  let c := fresh (Recorded.ofTransport ({} : Script)) config handlers 1 now
  let up : Use Script Unit := .client (.act (.updateConnection now))
  have hvalid : config.validate = none := by decide +kernel
  have hs : start (.ofTransport ({} : Script)) config handlers 1 now = .ok c :=
    start_eq_ok_iff.2 ⟨hvalid, rfl⟩
  obtain ⟨-, hfirst, -⟩ := requests_follow_handlers ({} : Script) config handlers 1 now hs []
  obtain ⟨-, -, hsecond, -⟩ := requests_follow_handlers ({} : Script) config handlers 1 now hs [up]
  obtain ⟨-, -, -, -, hlast⟩ :=
    requests_follow_handlers ({} : Script) config handlers 1 now hs [up, .client .shutdown]
  have hup : c.ComesUp (c.updateConnection now) := by decide +kernel
  have hone : (c.updateConnection now).session.queue.messages =
      [(Command.subscribe 1 .joinGame).encode] := hfirst now hup (by decide +kernel)
  refine ⟨c, hs, hup, hone, ?_, hlast next (by simp)⟩
  have htwo := hsecond next hup.2 (by decide +kernel)
  have hqueued : ((c.useAll [up]).2).session.queue.messages =
      [(Command.subscribe 1 .joinGame).encode] := hone
  rw [hqueued] at htwo
  exact htwo.trans (by decide +kernel)

end Client

end PresenceLink
