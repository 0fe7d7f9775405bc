import Mathlib.Data.Set.Basic
import PresenceLink.Client
import PresenceLink.Proofs.Supervisor.Link
import PresenceLink.Transport.Script

/-!
# How the peer follows the handlers

A client tells its peer of new and lost handlers on a link that is up, and of
all handlers when a link comes up. Requests that a lost link left in the queue
reach the next one first. So the peer has all kinds that are handled, and
besides them what such requests ask for: kinds whose handlers went away while
the link was down.

* `Following`: what all requests together amount to, and `following_act` for
  any step;
* `peer_follows_handlers`: the peer's set once the queue is empty;
* `peer_keeps_lost_kind`: a kind that the peer keeps without a handler.
-/

namespace PresenceLink

namespace Subscriptions

/-- The members of a set of kinds. -/
def kinds (s : Subscriptions) : Set Subscription := {k | s.contains k = true}

theorem kinds_toList (s : Subscriptions) : {k | k ∈ s.toList} = s.kinds := by
  ext k
  exact s.mem_toList k

theorem kinds_diff (s t : Subscriptions) : (s.diff t).kinds = s.kinds \ t.kinds := by
  ext k
  simp [kinds, contains_diff]

end Subscriptions

namespace Session

theorem hearAll_announce {s : Session} (hn : s.announce.1.length = s.subscriptions.toList.length)
    (set : Set Subscription) :
    Peer.hearAll set (s.announce.1.map Command.encode) = set ∪ s.subscriptions.kinds := by
  have hall := Peer.hearAll_subscribe (subscribe_of_length hn) set
  rwa [Subscriptions.kinds_toList] at hall

/-- On a link that is up new kinds are added to the peer's set and lost ones are
taken away. -/
theorem hearAll_resubscribe {s : Session} {next : Subscriptions} (hup : s.connected = true)
    (hn : (s.resubscribe next).1.length =
      (next.diff s.subscriptions).toList.length + (s.subscriptions.diff next).toList.length)
    (set : Set Subscription) :
    Peer.hearAll set ((s.resubscribe next).1.map Command.encode) =
      (set ∪ (next.kinds \ s.subscriptions.kinds)) \ (s.subscriptions.kinds \ next.kinds) := by
  obtain ⟨added, dropped, hall, hadded, hdropped⟩ := resubscribe_of_length hup hn
  rw [hall, List.map_append, Peer.hearAll_append, Peer.hearAll_subscribe hadded,
    Peer.hearAll_unsubscribe hdropped, Subscriptions.kinds_toList, Subscriptions.kinds_toList,
    Subscriptions.kinds_diff, Subscriptions.kinds_diff]

end Session

namespace Client

variable {τ α : Type} [Transport τ]

/-- What an embedder does with a client that it drives itself, and anything
that the transport does by itself. -/
inductive Act (τ α : Type) where
  | updateHandlers (handlers : Handlers α)
  | updateConnection (now : Instant)
  | updatePresence (p : Presence)
  | clearPresence
  | runCallbacks
  | world (change : τ → τ)

def act (c : Client (Recorded τ) α) : Act τ α → Client (Recorded τ) α
  | .updateHandlers handlers => c.updateHandlers handlers
  | .updateConnection now => c.updateConnection now
  | .updatePresence p => (c.updatePresence p).2
  | .clearPresence => c.clearPresence.2
  | .runCallbacks => c.runCallbacks.2
  | .world change =>
    let transport := c.supervisor.transport
    { c with supervisor :=
      { c.supervisor with transport := { transport with inner := change transport.inner } } }

def run (c : Client (Recorded τ) α) (acts : List (Act τ α)) : Client (Recorded τ) α :=
  acts.foldl act c

/-- The calls made on the transport so far. -/
def calls (c : Client (Recorded τ) α) : List Call := c.supervisor.transport.calls

/-- The link comes up. -/
def ComesUp (c c' : Client (Recorded τ) α) : Prop :=
  c.isConnected = false ∧ c'.isConnected = true

instance (c c' : Client (Recorded τ) α) : Decidable (c.ComesUp c') :=
  inferInstanceAs (Decidable (_ ∧ _))

/-- No request about a kind of event is refused. -/
def Granted (c : Client (Recorded τ) α) : Act τ α → Prop
  | .updateHandlers handlers =>
    let previous := c.session.subscriptions
    let next := handlers.subscriptions
    c.isConnected = true → (c.session.resubscribe next).1.length =
      (next.diff previous).toList.length + (previous.diff next).toList.length
  | .updateConnection now =>
    c.ComesUp (c.updateConnection now) →
      (c.supervisor.advance now).queued.length = c.session.subscriptions.toList.length
  | _ => True

instance (c : Client (Recorded τ) α) : (a : Act τ α) → Decidable (c.Granted a)
  | .updateHandlers _ => inferInstanceAs (Decidable (_ → _))
  | .updateConnection _ => inferInstanceAs (Decidable (_ → _))
  | .updatePresence _ | .clearPresence | .runCallbacks | .world _ =>
    inferInstanceAs (Decidable True)

def AllGranted (c : Client (Recorded τ) α) : List (Act τ α) → Prop
  | [] => True
  | a :: acts => c.Granted a ∧ AllGranted (c.act a) acts

instance decidableAllGranted (c : Client (Recorded τ) α) :
    (acts : List (Act τ α)) → Decidable (c.AllGranted acts)
  | [] => inferInstanceAs (Decidable True)
  | a :: acts =>
    have := decidableAllGranted (c.act a) acts
    inferInstanceAs (Decidable (_ ∧ _))

/-- The kinds that the peer has, or will have, by requests from before the link
came up and that no handlers have had since; `old` are those before the
step. -/
def stale (c c' : Client (Recorded τ) α) (old : Set Subscription) : Set Subscription :=
  (if c.ComesUp c' then Peer.hearAll ∅ c.session.queue.messages else old) \
    c'.handlers.subscriptions.kinds

def staleAfter (c : Client (Recorded τ) α) (old : Set Subscription) :
    List (Act τ α) → Set Subscription
  | [] => old
  | a :: acts => staleAfter (c.act a) (c.stale (c.act a) old) acts

/-- The requests that have reached the peer, and those on their way. -/
def requests (c : Client (Recorded τ) α) : List Bytes :=
  Peer.received c.calls ++ c.session.queue.messages

omit [Transport τ] in
/-- What was written is no longer on its way. -/
theorem requests_of_written {c c' : Client (Recorded τ) α} {payloads : List Bytes}
    (hmessages : c.session.queue.messages = payloads ++ c'.session.queue.messages)
    (hreceived : Peer.received c'.calls = Peer.received c.calls ++ payloads) :
    c'.requests = c.requests := by
  rw [requests, requests, hreceived, hmessages, List.append_assoc]

/-- What holds between steps: on a link that is up all requests together give
the peer the handled kinds and the stale ones. -/
structure Following (c : Client (Recorded τ) α) (old : Set Subscription) : Prop where
  orderly : c.session.Orderly
  synced : c.supervisor.Synced
  opened : c.session.closed = false
  handled : c.session.subscriptions = c.handlers.subscriptions
  apart : ∀ k ∈ old, k ∉ c.handlers.subscriptions.kinds
  peer : c.isConnected = true →
    Peer.hearAll ∅ c.requests = c.handlers.subscriptions.kinds ∪ old

omit [Transport τ] in
theorem not_comesUp {c c' : Client (Recorded τ) α}
    (hconnected : c'.session.connected = c.session.connected) : ¬ c.ComesUp c' := by
  rintro ⟨hdown, hup⟩
  have hsame : c.isConnected = true := hconnected.symm.trans hup
  rw [hdown] at hsame
  cases hsame

omit [Transport τ] in
theorem stale_of_not_comesUp {c c' : Client (Recorded τ) α} {old : Set Subscription}
    (hconnected : c'.session.connected = c.session.connected) :
    c.stale c' old = old \ c'.handlers.subscriptions.kinds := by
  rw [stale, if_neg (not_comesUp hconnected)]

omit [Transport τ] in
/-- Steps that leave the handlers and the link alone. -/
theorem Following.keep {c c' : Client (Recorded τ) α} {old : Set Subscription}
    (h : c.Following old) (horderly : c'.session.Orderly)
    (hstate : c'.supervisor.state = c.supervisor.state)
    (hflags : c'.session.flags = c.session.flags) (hhandlers : c'.handlers = c.handlers)
    (hpeer : Peer.hearAll ∅ c'.requests = Peer.hearAll ∅ c.requests) :
    c'.Following (c.stale c' old) := by
  obtain ⟨hsubs, hconnected, hclosed⟩ := Session.of_flags hflags
  have hstale : c.stale c' old = old := by
    rw [stale_of_not_comesUp hconnected, hhandlers]
    ext k
    exact ⟨fun hk => hk.1, fun hk => ⟨hk, h.apart k hk⟩⟩
  rw [hstale]
  refine ⟨horderly, h.synced.of_eq hstate hconnected, hclosed.trans h.opened, ?_, ?_, ?_⟩
  · rw [hhandlers, ← h.handled]
    exact hsubs
  · rw [hhandlers]
    exact h.apart
  · intro hup
    rw [hpeer, hhandlers]
    exact h.peer (hconnected.symm.trans hup)

omit [Transport τ] in
theorem hear_setActivity (s : Session) (activity : Option Presence) (set : Set Subscription) :
    Peer.hearAll set ((s.setActivity activity).1.toList.map Command.encode) = set := by
  cases hc : (s.setActivity activity).1 with
  | none => rfl
  | some c =>
    obtain ⟨n, rfl⟩ := Session.submit_eq_some hc
    exact Peer.hear_setActivity set n s.pid activity

omit [Transport τ] in
theorem Following.setActivity {c : Client (Recorded τ) α} {old : Set Subscription}
    (h : c.Following old) (activity : Option Presence) :
    (c.setActivity activity).2.Following (c.stale (c.setActivity activity).2 old) := by
  have hqueues := Session.Queues.setActivity h.orderly activity
  have hrequests : (c.setActivity activity).2.requests =
      c.requests ++ (c.session.setActivity activity).1.toList.map Command.encode := by
    have hmessages := congrArg (Peer.received c.calls ++ ·) hqueues.messages
    rw [← List.append_assoc] at hmessages
    exact hmessages
  refine h.keep hqueues.orderly rfl (c.session.flags_setActivity activity) rfl ?_
  rw [hrequests, Peer.hearAll_append, hear_setActivity]

omit [Transport τ] in
theorem updateHandlers_of_open {c : Client τ α} (h : c.session.closed = false)
    (handlers : Handlers α) :
    c.updateHandlers handlers = { c with
      supervisor := { c.supervisor with
        session := (c.session.resubscribe handlers.subscriptions).2 },
      handlers } := by
  rw [updateHandlers, if_neg (by simp [h])]
  rfl

theorem Following.updateHandlers {c : Client (Recorded τ) α} {old : Set Subscription}
    (h : c.Following old) (handlers : Handlers α)
    (hg : c.Granted (.updateHandlers handlers : Act τ α)) :
    (c.updateHandlers handlers).Following (c.stale (c.updateHandlers handlers) old) := by
  have hqueues := Session.Queues.resubscribe h.orderly handlers.subscriptions
  obtain ⟨hsubs, hconnected, hclosed⟩ :=
    Session.of_flags (c.session.flags_resubscribe handlers.subscriptions)
  rw [updateHandlers_of_open h.opened, stale_of_not_comesUp (by exact hconnected)]
  refine ⟨hqueues.orderly, h.synced.of_eq rfl hconnected, hclosed.trans h.opened, hsubs,
    fun k hk => hk.2, ?_⟩
  intro hup
  have hup' : c.isConnected = true := hconnected.symm.trans hup
  have hpeer := h.peer hup'
  have hmessages := congrArg (Peer.received c.calls ++ ·) hqueues.messages
  rw [← List.append_assoc] at hmessages
  change Peer.hearAll ∅ (Peer.received c.calls ++
    (c.session.resubscribe handlers.subscriptions).2.queue.messages) =
      handlers.subscriptions.kinds ∪ old \ handlers.subscriptions.kinds
  rw [hmessages, Peer.hearAll_append, Session.hearAll_resubscribe hup' (hg hup')]
  change (Peer.hearAll ∅ c.requests ∪ _) \ _ = _
  rw [hpeer, h.handled]
  ext k
  have hk := h.apart k
  simp only [Set.mem_sdiff, Set.mem_union]
  tauto

omit [Transport τ] in
/-- A link that is down announces nothing to anybody. -/
theorem Following.of_down {c c' : Client (Recorded τ) α} {old : Set Subscription}
    (h : c.Following old) (horderly : c'.session.Orderly) (hsynced : c'.supervisor.Synced)
    (hflags : c'.session.flags = (c.session.subscriptions, false, c.session.closed))
    (hhandlers : c'.handlers = c.handlers) : c'.Following (c.stale c' old) := by
  obtain ⟨hsubs, hconnected, hclosed⟩ := Session.of_flags hflags
  have hdown : ¬ c'.isConnected = true := by simp [isConnected, hconnected]
  refine ⟨horderly, hsynced, hclosed.trans h.opened, ?_, fun k hk => hk.2,
    fun hup => absurd hup hdown⟩
  rw [hsubs, h.handled, hhandlers]

omit [Transport τ] in
/-- A link that comes up starts with the requests that were left, and then has
all handled kinds announced. -/
theorem Following.of_up {c c' : Client (Recorded τ) α} {old : Set Subscription}
    (h : c.Following old) (hsynced : c'.supervisor.Synced) (hdown : c.session.connected = false)
    (hqueue : c'.session.queue = (c.session.setConnected true).announce.2.queue)
    (horderly : c'.session.Orderly)
    (hflags : c'.session.flags = (c.session.setConnected true).announce.2.flags)
    (hhandlers : c'.handlers = c.handlers) (hreceived : Peer.received c'.calls = [])
    (hn : (c.session.setConnected true).announce.1.length = c.session.subscriptions.toList.length) :
    c'.Following (c.stale c' old) := by
  have hup : (c.session.setConnected true).Orderly := ⟨h.orderly.idle, h.orderly.nextNonce⟩
  have hqueues := Session.Queues.announce hup
  rw [Session.flags_announce] at hflags
  obtain ⟨hsubs, hconnected, hclosed⟩ := Session.of_flags hflags
  have hstale : c.stale c' old =
      Peer.hearAll ∅ c.session.queue.messages \ c.handlers.subscriptions.kinds := by
    rw [stale, if_pos ⟨hdown, hconnected⟩, hhandlers]
  refine ⟨horderly, hsynced, hclosed.trans h.opened, ?_, fun k hk => hk.2, ?_⟩
  · rw [hsubs, hhandlers]
    exact h.handled
  · intro _
    have hmessages : c'.requests = c.session.queue.messages ++
        (c.session.setConnected true).announce.1.map Command.encode := by
      rw [requests, hreceived, hqueue, List.nil_append]
      exact hqueues.messages
    rw [hmessages, Peer.hearAll_append, Session.hearAll_announce hn, hstale, hhandlers,
      ← h.handled]
    change _ ∪ c.session.subscriptions.kinds = _
    ext k
    simp only [Set.mem_union, Set.mem_sdiff]
    tauto

theorem Following.updateConnection {c : Client (Recorded τ) α} {old : Set Subscription}
    (h : c.Following old) (now : Instant)
    (hg : c.Granted (.updateConnection now : Act τ α)) :
    (c.updateConnection now).Following (c.stale (c.updateConnection now) old) := by
  obtain ⟨batch, hmoves⟩ := Supervisor.moves_tick h.orderly now
  obtain ⟨hsynced, hlink⟩ := Supervisor.linkStep_advance h.orderly h.synced now
  revert hg
  unfold Granted Client.updateConnection
  cases c.engine with
  | thread => exact fun _ => h.keep h.orderly rfl rfl rfl rfl
  | stopped => exact fun _ => h.keep h.orderly rfl rfl rfl rfl
  | manual =>
    intro hg
    cases hlink with
    | down hflags => exact h.of_down hmoves.orderly hsynced hflags rfl
    | up hdown hqueued hsession hreceived =>
      have hflags := congrArg Session.flags hsession
      have hqueue := congrArg Session.queue hsession
      have hconnected := (Session.of_flags (hflags.trans (Session.flags_announce _))).2.1
      have hall := hg ⟨hdown, hconnected⟩
      rw [hqueued] at hall
      exact h.of_up hsynced hdown hqueue hmoves.orderly hflags rfl hreceived hall
    | stays hup payloads hflags hmessages hreceived =>
      have hstate := h.synced.state_eq hsynced hup (Session.of_flags hflags).2.1
      have hrequests : requests { c with supervisor := c.supervisor.tick now } = c.requests :=
        requests_of_written hmessages hreceived
      exact h.keep hmoves.orderly hstate hflags rfl (congrArg (Peer.hearAll ∅) hrequests)

theorem following_act {c : Client (Recorded τ) α} {old : Set Subscription} (h : c.Following old)
    (a : Act τ α) (hg : c.Granted a) : (c.act a).Following (c.stale (c.act a) old) := by
  cases a with
  | updateHandlers handlers => exact h.updateHandlers handlers hg
  | updateConnection now => exact h.updateConnection now hg
  | updatePresence p => exact h.setActivity (some p)
  | clearPresence => exact h.setActivity none
  | runCallbacks => exact h.keep ⟨h.orderly.idle, h.orderly.nextNonce⟩ rfl rfl rfl rfl
  | world change => exact h.keep h.orderly rfl rfl rfl rfl

theorem following_run {c : Client (Recorded τ) α} {old : Set Subscription} (h : c.Following old)
    (acts : List (Act τ α)) (hg : c.AllGranted acts) :
    (c.run acts).Following (c.staleAfter old acts) := by
  induction acts generalizing c old with
  | nil => exact h
  | cons a acts ih => exact ih (following_act h a hg.1) hg.2

/-- A client before its first step. -/
def fresh (transport : τ) (config : Config) (handlers : Handlers α) (pid : UInt32)
    (now : Instant) : Client τ α where
  supervisor := .ofTransport transport
    ((Session.ofSize config.queueSlots config.slotCapacity
      (config.processId.getD pid)).setSubscriptions handlers.subscriptions)
    (.ofBounds config.baseDelay config.maxDelay) now
  handlers
  engine := match config.drive with
    | .thread => .thread
    | .manual => .manual

omit [Transport τ] in
theorem start_eq_ok_iff {t : τ} {config : Config} {handlers : Handlers α} {pid : UInt32}
    {now : Instant} {c : Client τ α} :
    start t config handlers pid now = .ok c ↔
      config.validate = none ∧ c = fresh t config handlers pid now := by
  unfold start
  cases config.validate with
  | none => exact ⟨fun h => ⟨rfl, (Except.ok.inj h).symm⟩, fun h => congrArg Except.ok h.2.symm⟩
  | some e =>
    constructor
    · intro h
      cases h
    · rintro ⟨h, -⟩
      cases h

omit [Transport τ] in
theorem following_start {t : τ} {config : Config} {handlers : Handlers α} {pid : UInt32}
    {now : Instant} {c : Client (Recorded τ) α}
    (h : start (.ofTransport t) config handlers pid now = .ok c) : c.Following ∅ := by
  obtain ⟨-, rfl⟩ := start_eq_ok_iff.1 h
  have hdown : ¬ (fresh (Recorded.ofTransport t) config handlers pid now).isConnected = true :=
    Bool.false_ne_true
  refine ⟨⟨SendQueue.idle_ofSize .., rfl⟩, ?_, rfl, rfl, fun k hk => absurd hk (Set.notMem_empty k),
    fun hup => absurd hup hdown⟩
  constructor
  · intro hup
    cases hup
  · intro hup
    exact absurd hup hdown

/-- **The peer has all handled kinds, and stale ones besides.** Whenever the link
is up and nothing is queued, the peer sends the events that are handled and
those that requests from before the link came up subscribe it to and no
handlers have had since; only without any of these does its set agree with the
handlers. -/
theorem peer_follows_handlers (t : τ) (config : Config) (handlers : Handlers α) (pid : UInt32)
    (now : Instant) (acts : List (Act τ α)) {c : Client (Recorded τ) α}
    (hs : start (.ofTransport t) config handlers pid now = .ok c) (hg : c.AllGranted acts)
    (hup : (c.run acts).isConnected = true) (hq : (c.run acts).session.queue.messages = []) :
    Peer.subscribed (c.run acts).calls =
        (c.run acts).handlers.subscriptions.kinds ∪ c.staleAfter ∅ acts ∧
      (Peer.subscribed (c.run acts).calls = (c.run acts).handlers.subscriptions.kinds ↔
        c.staleAfter ∅ acts = ∅) := by
  have h := following_run (following_start hs) acts hg
  have hpeer := h.peer hup
  rw [requests, hq, List.append_nil] at hpeer
  change Peer.subscribed (c.run acts).calls = _ at hpeer
  refine ⟨hpeer, ?_⟩
  rw [hpeer]
  constructor
  · intro heq
    ext k
    constructor
    · intro hk
      have hkind : k ∈ (c.run acts).handlers.subscriptions.kinds := heq ▸ Or.inr hk
      exact absurd hkind (h.apart k hk)
    · exact fun hk => absurd hk (Set.notMem_empty k)
  · intro hnone
    rw [hnone, Set.union_empty]

/-- A link that comes up, and a handler that the peer is told of. -/
theorem peer_follows_one_handler :
    let now : Instant := .zero
    let config := ((Config.ofApplicationId "1").withDrive .manual).withMaxMessageSize 256
    let acts : List (Act Script Unit) := [.updateConnection now, .updateConnection now]
    ∃ c, start (.ofTransport ({} : Script)) config { joinGame := some fun _ => () } 1 now = .ok c ∧
      c.AllGranted acts ∧ (c.run acts).isConnected = true ∧
      (c.run acts).session.queue.messages = [] ∧
      Peer.subscribed (c.run acts).calls =
        (c.run acts).handlers.subscriptions.kinds ∪ c.staleAfter ∅ acts := by
  intro now config acts
  let handlers : Handlers Unit := { joinGame := some fun _ => () }
  let c := fresh (Recorded.ofTransport ({} : Script)) config handlers 1 now
  have hvalid : config.validate = none := by decide +kernel
  have hs : start (Recorded.ofTransport ({} : Script)) config handlers 1 now = .ok c :=
    start_eq_ok_iff.2 ⟨hvalid, rfl⟩
  have hg : c.AllGranted acts := by decide +kernel
  have hup : (c.run acts).isConnected = true := by decide +kernel
  have hq : (c.run acts).session.queue.messages = [] := by decide +kernel
  exact ⟨c, hs, hg, hup, hq,
    (peer_follows_handlers ({} : Script) config handlers 1 now acts hs hg hup hq).1⟩

/-- Handlers that go away while the link is down: the request that their link
left in the queue subscribes the next one to a kind that is no longer
handled. -/
theorem peer_keeps_lost_kind :
    let now : Instant := .zero
    let config := (((Config.ofApplicationId "1").withDrive .manual).withReconnectDelays .zero
      .zero).withMaxMessageSize 256
    let acts : List (Act Script Unit) := [.updateConnection now,
      .world fun script => script.addInbound [.error .pipeClosed], .updateConnection now,
      .updateHandlers .empty, .updateConnection now, .updateConnection now]
    ∃ c, start (.ofTransport ({} : Script)) config { joinGame := some fun _ => () } 1 now = .ok c ∧
      c.AllGranted acts ∧ (c.run acts).isConnected = true ∧
      (c.run acts).session.queue.messages = [] ∧
      Peer.subscribed (c.run acts).calls ≠ (c.run acts).handlers.subscriptions.kinds := by
  intro now config acts
  let c := fresh (Recorded.ofTransport ({} : Script)) config { joinGame := some fun _ => () } 1 now
  have hvalid : config.validate = none := by decide +kernel
  have hreceived : Peer.received (c.run acts).calls = [(Command.subscribe 1 .joinGame).encode] := by
    decide +kernel
  refine ⟨c, start_eq_ok_iff.2 ⟨hvalid, rfl⟩, by decide +kernel, by decide +kernel,
    by decide +kernel, ?_⟩
  have hkinds : Subscription.joinGame ∉ (c.run acts).handlers.subscriptions.kinds := by
    change ¬ (c.run acts).handlers.subscriptions.contains .joinGame = true
    decide +kernel
  intro heq
  rw [← heq, Peer.subscribed, hreceived] at hkinds
  exact hkinds (Or.inl ⟨1, rfl⟩)

end Client

end PresenceLink
