import PresenceLink.Proofs.Client.Callbacks

/-!
# Which kinds are announced on a link

A kind is announced on a link if a subscription to it has been queued since the
link came up, and nothing since that takes it back. When a link comes up and when
the handlers are replaced, as many kinds are announced as there are free slots.
The others are missed, and a client that is asked to register for a missed kind
agrees without queueing anything, since there is a handler for it.

* `Session.announced_announce`, `Session.announced_resubscribe`: the kinds that
  the free slots suffice for;
* `Announcing`: every handled kind is announced or missed, and
  `announcing_perform` for any operation;
* `handled_announced`: the same at any point of a run, and for a kind that is
  registered;
* `missed_kind_registered`: a missed kind.
-/

namespace PresenceLink

/-- Some commands subscribe to a kind and do not take it back. -/
def Announced (commands : List Command) (k : Subscription) : Prop :=
  ∃ older n newer, commands = older ++ .subscribe n k :: newer ∧ ∀ m, .unsubscribe m k ∉ newer

namespace Announced

variable {commands more : List Command} {k : Subscription}

theorem append (h : Announced commands k) (hmore : ∀ m, .unsubscribe m k ∉ more) :
    Announced (commands ++ more) k := by
  obtain ⟨older, n, newer, rfl, hnewer⟩ := h
  refine ⟨older, n, newer ++ more, by simp, ?_⟩
  intro m hm
  rcases List.mem_append.1 hm with hm | hm
  · exact hnewer m hm
  · exact hmore m hm

theorem of_mem {n : UInt64} (h : .subscribe n k ∈ more) (hmore : ∀ m, .unsubscribe m k ∉ more)
    (commands : List Command) : Announced (commands ++ more) k := by
  obtain ⟨older, newer, rfl⟩ := List.append_of_mem h
  refine ⟨commands ++ older, n, newer, by simp, ?_⟩
  intro m hm
  exact hmore m (List.mem_append_right _ (List.mem_cons_of_mem _ hm))

end Announced

namespace Session

/-! ## What the free slots suffice for -/

/-- A session with slots for requests about any kind. -/
structure Spacious (s : Session) : Prop where
  queue : s.queue.WellFormed
  size : 256 ≤ s.queue.slotCapacity

namespace Spacious

variable {s : Session}

theorem submit (h : s.Spacious) (build : UInt64 → Command) : (s.submit build).2.Spacious := by
  refine ⟨wellFormed_submit h.queue build, ?_⟩
  rw [slotCapacity_submit h.queue]
  exact h.size

theorem announce (h : s.Spacious) : s.announce.2.Spacious :=
  submitEach_keeps (P := Spacious) (fun _ _ h => h.submit _) h _

theorem resubscribe (h : s.Spacious) (next : Subscriptions) : (s.resubscribe next).2.Spacious := by
  have hset : (s.setSubscriptions next).Spacious := ⟨h.queue, h.size⟩
  unfold Session.resubscribe
  dsimp only
  split
  · have hadded : (submitEach Session.subscribe (s.setSubscriptions next)
        (next.diff s.subscriptions).toList).2.Spacious :=
      submitEach_keeps (P := Spacious) (fun _ _ h => h.submit _) hset _
    exact submitEach_keeps (P := Spacious) (fun _ _ h => h.submit _) hadded _
  · exact hset

theorem drain (h : s.Spacious) {s' : Session} {message : Option Bytes}
    (hd : s.drain = (message, s')) : s'.Spacious := by
  obtain ⟨hq, -⟩ := drain_frame hd
  have hsize := SendQueue.slotCapacity_drain h.queue
  rw [hq] at hsize
  exact ⟨(SendQueue.ready_of_drain h.queue hq).1, hsize.symm ▸ h.size⟩

/-- As many of some kinds are subscribed to as there are free slots. -/
theorem subscribe_mem (h : s.Spacious) {kinds : List Subscription} {k : Subscription}
    (hk : k ∈ kinds.take s.vacant) : ∃ n, .subscribe n k ∈ (submitEach Session.subscribe s kinds).1 := by
  have hfit : ∀ k ∈ kinds, s.Fits (Command.subscribe · k) := fun k _ =>
    fits_of_kind (k := k) h.size fun _ => rfl
  obtain ⟨i, hi, hget⟩ := List.getElem_of_mem hk
  refine ⟨s.nextNonce + UInt64.ofNat i, ?_⟩
  change _ ∈ (submitEach (fun s k => s.submit (Command.subscribe · k)) s kinds).1
  rw [queued_submitEach .subscribe h.queue hfit, List.mem_mapIdx]
  exact ⟨i, hi, by rw [hget]⟩

end Spacious

theorem unsubscribe_not_mem_subscribe {s : Session} {kinds : List Subscription} (m : UInt64)
    (k : Subscription) : .unsubscribe m k ∉ (submitEach subscribe s kinds).1 := by
  intro hm
  obtain ⟨j, -, n, he⟩ := mem_submitEach (R := fun c j => ∃ n, c = .subscribe n j)
    (fun _ _ _ => submit_eq_some) hm
  cases he

theorem unsubscribe_mem {s : Session} {kinds : List Subscription} {m : UInt64} {k : Subscription}
    (hm : .unsubscribe m k ∈ (submitEach unsubscribe s kinds).1) : k ∈ kinds := by
  obtain ⟨j, hj, n, he⟩ := mem_submitEach (R := fun c j => ∃ n, c = .unsubscribe n j)
    (fun _ _ _ => submit_eq_some) hm
  cases he
  exact hj

/-- When a link comes up, a handled kind is announced or finds no free slot. -/
theorem announced_announce {s : Session} (h : s.Spacious) {k : Subscription}
    (hk : s.subscriptions.contains k = true) :
    Announced s.announce.1 k ∨ k ∈ s.subscriptions.toList.drop s.vacant := by
  have hmem := (s.subscriptions.mem_toList k).2 hk
  rw [← List.take_append_drop s.vacant s.subscriptions.toList, List.mem_append] at hmem
  refine hmem.imp_left fun htake => ?_
  obtain ⟨n, hn⟩ := h.subscribe_mem htake
  exact Announced.of_mem hn (fun m => unsubscribe_not_mem_subscribe m k) []

/-- Kinds that are still handled are not taken back. -/
theorem unsubscribe_not_mem_resubscribe (s : Session) {next : Subscriptions} {k : Subscription}
    (hk : next.contains k = true) (m : UInt64) : .unsubscribe m k ∉ (s.resubscribe next).1 := by
  unfold resubscribe
  dsimp only
  split
  · intro hm
    rcases List.mem_append.1 hm with hm | hm
    · exact unsubscribe_not_mem_subscribe m k hm
    · have hdropped := (Subscriptions.mem_toList _ k).1 (unsubscribe_mem hm)
      rw [Subscriptions.contains_diff, hk] at hdropped
      simp at hdropped
  · exact List.not_mem_nil

/-- When the handlers are replaced, a new kind is announced or finds no free
slot. -/
theorem announced_resubscribe {s : Session} (h : s.Spacious) (hup : s.connected = true)
    {next : Subscriptions} {k : Subscription} (hk : k ∈ (next.diff s.subscriptions).toList)
    (commands : List Command) : Announced (commands ++ (s.resubscribe next).1) k ∨
      k ∈ (next.diff s.subscriptions).toList.drop s.vacant := by
  have hnext : next.contains k = true := by
    have hnew := (Subscriptions.mem_toList _ k).1 hk
    rw [Subscriptions.contains_diff, Bool.and_eq_true] at hnew
    exact hnew.1
  rw [← List.take_append_drop s.vacant (next.diff s.subscriptions).toList, List.mem_append] at hk
  refine hk.imp_left fun htake => ?_
  have hset : (s.setSubscriptions next).Spacious := ⟨h.queue, h.size⟩
  obtain ⟨n, hn⟩ := hset.subscribe_mem htake
  have hmem : .subscribe n k ∈ (s.resubscribe next).1 := by
    have hup' : (s.setSubscriptions next).connected = true := hup
    rw [resubscribe, if_pos hup']
    exact List.mem_append_left _ hn
  exact Announced.of_mem hmem (s.unsubscribe_not_mem_resubscribe hnext) commands

end Session

theorem Supervisor.spacious_tick {τ : Type} [Transport τ] {s : Supervisor (Recorded τ)}
    (h : s.session.Spacious) (now : Instant) : (s.tick now).session.Spacious := by
  have hadvance : (s.advance now).supervisor.session.Spacious := by
    refine session_advance (P := Session.Spacious) ?_ (fun h => ⟨h.queue, h.size⟩)
      (fun h hd => h.drain hd) h now
    intro session h
    have hup : (session.setConnected true).Spacious := ⟨h.queue, h.size⟩
    exact hup.announce
  exact ⟨hadvance.queue, hadvance.size⟩

theorem Supervisor.queued_of_connected {τ : Type} [Transport τ] {s : Supervisor (Recorded τ)}
    (h : s.session.Orderly) (hup : s.state = .connected) (now : Instant) :
    (s.advance now).queued = [] := by
  obtain ⟨batch, failure, -, -, hqueued, -⟩ := service_spec h now
  unfold advance
  rw [hup]
  exact hqueued

/-! ## Runs -/

namespace Client

variable {τ α : Type} [Transport τ]

/-- The commands that an operation queues. -/
def queuedBy (c : Client (Recorded τ) α) : Op τ α → List Command
  | .act (.updateHandlers handlers) =>
    if c.session.closed then [] else (c.session.resubscribe handlers.subscriptions).1
  | .act (.updateConnection now) =>
    match c.engine with
    | .manual => (c.supervisor.advance now).queued
    | _ => []
  | .act (.updatePresence p) => (c.session.setActivity (some p)).1.toList
  | .act .clearPresence => (c.session.setActivity none).1.toList
  | .register k => (c.session.act (.register k)).1
  | .act .runCallbacks | .act (.world _) | .shutdown => []

/-- The commands queued since the link came up, `commands` being those before an
operation. -/
def sinceUpAfter (c : Client (Recorded τ) α) (commands : List Command) (op : Op τ α) :
    List Command := (if c.ComesUp (c.perform op).2 then [] else commands) ++ c.queuedBy op

/-- The commands queued since the link came up. -/
def sinceUp (c : Client (Recorded τ) α) (commands : List Command) : List (Op τ α) → List Command
  | [] => commands
  | op :: ops => (c.perform op).2.sinceUp (c.sinceUpAfter commands op) ops

/-- The handled kinds for which there was no free slot when they were to be
announced on the link, `missed` being those before an operation. -/
def missedAfter (c : Client (Recorded τ) α) (missed : List Subscription) :
    Op τ α → List Subscription
  | .act (.updateHandlers handlers) =>
    let added := (handlers.subscriptions.diff c.session.subscriptions).toList
    missed.filter (· ∉ added) ++ added.drop c.session.vacant
  | .act (.updateConnection now) =>
    if c.ComesUp (c.updateConnection now) then
      c.session.subscriptions.toList.drop c.session.vacant
    else missed
  | _ => missed

/-- The handled kinds for which there was no free slot. -/
def missed (c : Client (Recorded τ) α) (before : List Subscription) :
    List (Op τ α) → List Subscription
  | [] => before
  | op :: ops => (c.perform op).2.missed (c.missedAfter before op) ops

/-- What holds between operations: on a link that is up the handled kinds are
announced, or they are missed. -/
structure Announcing (c : Client (Recorded τ) α) (commands : List Command)
    (missed : List Subscription) : Prop where
  orderly : c.session.Orderly
  synced : c.supervisor.Synced
  size : 256 ≤ c.session.queue.slotCapacity
  handled : c.session.closed = false → c.session.subscriptions = c.handlers.subscriptions
  closed : c.session.closed = true → c.isConnected = false ∧ c.engine = .stopped
  sent : c.isConnected = true → ∃ older, c.requests = older ++ commands.map Command.encode
  announced : c.isConnected = true → ∀ k, c.handlers.handles k = true →
    Announced commands k ∨ k ∈ missed

namespace Announcing

variable {c c' : Client (Recorded τ) α} {commands more : List Command}
  {missed : List Subscription}

omit [Transport τ] in
theorem spacious (h : c.Announcing commands missed) : c.session.Spacious :=
  ⟨h.orderly.idle.wellFormed, h.size⟩

omit [Transport τ] in
theorem opened (h : c.Announcing commands missed) (hup : c.isConnected = true) :
    c.session.closed = false := by
  cases hc : c.session.closed with
  | false => rfl
  | true =>
    rw [(h.closed hc).1] at hup
    cases hup

omit [Transport τ] in
/-- Nothing is said of a link that is down. -/
theorem of_down (h : c.Announcing commands missed) (c' : Client (Recorded τ) α)
    (horderly : c'.session.Orderly)
    (hsynced : c'.supervisor.Synced) (hsize : c'.session.Spacious)
    (hflags : c'.session.flags = (c.session.subscriptions, false, c.session.closed))
    (hhandlers : c'.handlers = c.handlers) (hengine : c'.engine = c.engine)
    (more : List Command) (others : List Subscription) : c'.Announcing more others := by
  obtain ⟨hsubs, hconnected, hclosed⟩ := Session.of_flags hflags
  have hdown : ¬ c'.isConnected = true := by simp [isConnected, hconnected]
  refine ⟨horderly, hsynced, hsize.size, ?_, ?_, fun hup => absurd hup hdown,
    fun hup => absurd hup hdown⟩
  · rw [hclosed, hsubs, hhandlers]
    exact h.handled
  · rw [hclosed, hengine]
    exact fun hc => ⟨hconnected, (h.closed hc).2⟩

omit [Transport τ] in
/-- Steps that leave the handlers and the link alone and take no kind back. -/
theorem keep (h : c.Announcing commands missed) (c' : Client (Recorded τ) α)
    (horderly : c'.session.Orderly) (hsize : c'.session.Spacious)
    (hstate : c'.supervisor.state = c.supervisor.state)
    (hflags : c'.session.flags = c.session.flags) (hhandlers : c'.handlers = c.handlers)
    (hengine : c'.engine = c.engine)
    (hrequests : c'.requests = c.requests ++ more.map Command.encode)
    (hmore : ∀ m k, .unsubscribe m k ∉ more) : c'.Announcing (commands ++ more) missed := by
  obtain ⟨hsubs, hconnected, hclosed⟩ := Session.of_flags hflags
  have hsame : c'.isConnected = c.isConnected := hconnected
  refine ⟨horderly, h.synced.of_eq hstate hconnected, hsize.size, ?_, ?_, ?_, ?_⟩
  · rw [hclosed, hsubs, hhandlers]
    exact h.handled
  · rw [hclosed, hsame, hengine]
    exact h.closed
  · intro hup
    obtain ⟨older, hsent⟩ := h.sent (hsame ▸ hup)
    exact ⟨older, by rw [hrequests, hsent, List.map_append, List.append_assoc]⟩
  · intro hup k hk
    rw [hhandlers] at hk
    exact (h.announced (hsame ▸ hup) k hk).imp_left fun ha => ha.append fun m => hmore m k

omit [Transport τ] in
/-- A request about no handled kind, or none. -/
theorem request (h : c.Announcing commands missed)
    (hqueues : Session.Queues c.session more c'.session) (hsize : c'.session.Spacious)
    (hflags : c'.session.flags = c.session.flags)
    (hc : c' = { c with supervisor := { c.supervisor with session := c'.session } })
    (hmore : ∀ m k, .unsubscribe m k ∉ more) : c'.Announcing (commands ++ more) missed := by
  refine h.keep c' hqueues.orderly hsize (by rw [hc]) hflags (by rw [hc]) (by rw [hc]) ?_ hmore
  have hcalls : c'.calls = c.calls := by rw [hc]; rfl
  rw [requests, requests, hqueues.messages, hcalls, List.append_assoc]

omit [Transport τ] in
theorem setActivity (h : c.Announcing commands missed) (activity : Option Presence) :
    (c.setActivity activity).2.Announcing
      (commands ++ (c.session.setActivity activity).1.toList) missed := by
  refine h.request (Session.Queues.setActivity h.orderly activity)
    (h.spacious.submit fun n => .setActivity n c.session.pid activity)
    (c.session.flags_setActivity activity) rfl ?_
  intro m k hm
  obtain ⟨n, he⟩ := Session.submit_eq_some (Option.mem_toList.1 hm)
  cases he

omit [Transport τ] in
theorem register (h : c.Announcing commands missed) (k : Subscription) :
    (c.register k).2.Announcing (commands ++ (c.session.act (.register k)).1) missed := by
  refine h.request (Session.Queues.act h.orderly (.register k)) ?_ (c.session.flags_register k) rfl ?_
  · change (c.session.register k).2.Spacious
    unfold Session.register
    split
    · exact h.spacious
    · split
      · exact h.spacious
      · exact h.spacious.submit _
  · intro m j hm
    simp only [Session.act] at hm
    split at hm
    · cases hm
    · obtain ⟨n, he⟩ := Session.submit_eq_some (Option.mem_toList.1 hm)
      cases he

/-- New handlers on a link that is up: kinds that stay are not taken back, and new
ones are announced as far as there are free slots. -/
theorem updateHandlers (h : c.Announcing commands missed) (hc : c.session.closed = false)
    (handlers : Handlers α) :
    (c.updateHandlers handlers).Announcing
      (commands ++ (c.session.resubscribe handlers.subscriptions).1)
      (c.missedAfter missed (.act (.updateHandlers handlers) : Op τ α)) := by
  have hqueues := Session.Queues.resubscribe h.orderly handlers.subscriptions
  obtain ⟨hsubs, hconnected, hclosed⟩ :=
    Session.of_flags (c.session.flags_resubscribe handlers.subscriptions)
  rw [updateHandlers_of_open hc]
  refine ⟨hqueues.orderly, h.synced.of_eq rfl hconnected, (h.spacious.resubscribe _).size,
    fun _ => hsubs, ?_, ?_, ?_⟩
  · intro hclosed'
    rw [hclosed.symm.trans hclosed'] at hc
    cases hc
  · intro hup
    obtain ⟨older, hsent⟩ := h.sent (hconnected.symm.trans hup)
    refine ⟨older, ?_⟩
    change Peer.received c.calls ++
      (c.session.resubscribe handlers.subscriptions).2.queue.messages = _
    rw [hqueues.messages, ← List.append_assoc, List.map_append, ← List.append_assoc, ← hsent]
    rfl
  · intro hup k hk
    have hup' : c.session.connected = true := hconnected.symm.trans hup
    have hnext : handlers.subscriptions.contains k = true :=
      (handlers.contains_subscriptions k).trans hk
    simp only [missedAfter, List.mem_append, List.mem_filter, decide_eq_true_eq]
    by_cases hnew : k ∈ (handlers.subscriptions.diff c.session.subscriptions).toList
    · exact (Session.announced_resubscribe h.spacious hup' hnew commands).imp_right Or.inr
    · have hold : c.handlers.handles k = true := by
        rw [← c.handlers.contains_subscriptions, ← h.handled hc]
        rw [Subscriptions.mem_toList, Subscriptions.contains_diff, hnext] at hnew
        simpa using hnew
      rcases h.announced hup' k hold with ha | hm
      · exact Or.inl (ha.append (c.session.unsubscribe_not_mem_resubscribe hnext))
      · exact Or.inr (Or.inl ⟨hm, hnew⟩)

omit [Transport τ] in
/-- A link that comes up starts with no kind announced, and then has them
announced as far as there are free slots. -/
theorem of_up (h : c.Announcing commands missed) (c' : Client (Recorded τ) α)
    (horderly : c'.session.Orderly) (hsynced : c'.supervisor.Synced)
    (hsize : c'.session.Spacious) (hopen : c.session.closed = false)
    (hqueue : c'.session.queue = (c.session.setConnected true).announce.2.queue)
    (hflags : c'.session.flags = (c.session.setConnected true).announce.2.flags)
    (hhandlers : c'.handlers = c.handlers) (hreceived : Peer.received c'.calls = []) :
    c'.Announcing (c.session.setConnected true).announce.1
      (c.session.subscriptions.toList.drop c.session.vacant) := by
  have hup : (c.session.setConnected true).Orderly := ⟨h.orderly.idle, h.orderly.nextNonce⟩
  have hup' : (c.session.setConnected true).Spacious := ⟨h.spacious.queue, h.size⟩
  have hqueues := Session.Queues.announce hup
  rw [Session.flags_announce] at hflags
  obtain ⟨hsubs, -, hclosed⟩ := Session.of_flags hflags
  have hhandled : c'.session.subscriptions = c'.handlers.subscriptions := by
    rw [hsubs, hhandlers]
    exact h.handled hopen
  refine ⟨horderly, hsynced, hsize.size, fun _ => hhandled, ?_, ?_, ?_⟩
  · intro hc
    have hopened : c'.session.closed = false := hclosed.trans hopen
    rw [hopened] at hc
    cases hc
  · intro _
    refine ⟨c.session.queue.messages, ?_⟩
    rw [requests, hreceived, hqueue, List.nil_append]
    exact hqueues.messages
  · intro _ k hk
    refine Session.announced_announce hup' ?_
    change c.session.subscriptions.contains k = true
    rw [h.handled hopen, ← hhandlers]
    exact (c'.handlers.contains_subscriptions k).trans hk

/-- A tick brings the link up, leaves it down, or leaves the announced kinds. -/
theorem tick (h : c.Announcing commands missed) (hopen : c.session.closed = false)
    (now : Instant) :
    let c' : Client (Recorded τ) α := { c with supervisor := c.supervisor.tick now }
    c'.Announcing
      ((if c.ComesUp c' then [] else commands) ++ (c.supervisor.advance now).queued)
      (if c.ComesUp c' then c.session.subscriptions.toList.drop c.session.vacant else missed) := by
  intro c'
  obtain ⟨batch, hmoves⟩ := Supervisor.moves_tick h.orderly now
  obtain ⟨hsynced, hlink⟩ := Supervisor.linkStep_advance h.orderly h.synced now
  have hspacious := Supervisor.spacious_tick h.spacious now
  cases hlink with
  | down hflags => exact h.of_down c' hmoves.orderly hsynced hspacious hflags rfl rfl _ _
  | up hdown hqueued hsession hreceived =>
    have hflags := congrArg Session.flags hsession
    have hup : c.ComesUp c' :=
      ⟨hdown, (Session.of_flags (hflags.trans (Session.flags_announce _))).2.1⟩
    have hqueue := congrArg Session.queue hsession
    rw [if_pos hup, if_pos hup, hqueued, List.nil_append]
    exact h.of_up c' hmoves.orderly hsynced hspacious hopen hqueue hflags rfl hreceived
  | stays hup payloads hflags hmessages hreceived =>
    have hconnected := (Session.of_flags hflags).2.1
    have hstays : ¬ c.ComesUp c' := not_comesUp hconnected
    have hrequests : c'.requests = c.requests := requests_of_written hmessages hreceived
    have hqueued := Supervisor.queued_of_connected h.orderly (h.synced.2 hup) now
    rw [if_neg hstays, if_neg hstays, hqueued]
    exact h.keep c' hmoves.orderly hspacious (h.synced.state_eq hsynced hup hconnected) hflags rfl
      rfl (by rw [hrequests, List.map_nil, List.append_nil]) fun _ _ => List.not_mem_nil

theorem updateConnection (h : c.Announcing commands missed) (now : Instant) :
    (c.updateConnection now).Announcing
      (c.sinceUpAfter commands (.act (.updateConnection now)))
      (c.missedAfter missed (.act (.updateConnection now) : Op τ α)) := by
  change (c.updateConnection now).Announcing
    ((if c.ComesUp (c.updateConnection now) then [] else commands) ++
      c.queuedBy (.act (.updateConnection now)))
    (if c.ComesUp (c.updateConnection now) then
      c.session.subscriptions.toList.drop c.session.vacant else missed)
  by_cases hengine : c.engine = .manual
  · have hopen : c.session.closed = false := by
      cases hc : c.session.closed with
      | false => rfl
      | true =>
        rw [(h.closed hc).2] at hengine
        cases hengine
    have htick := h.tick hopen now
    simpa only [Client.updateConnection, queuedBy, hengine] using htick
  · have hqueued : c.queuedBy (.act (.updateConnection now)) = [] := by
      rw [queuedBy]
      split
      · exact absurd (by assumption) hengine
      · rfl
    have hstays : ¬ c.ComesUp c := not_comesUp rfl
    rw [updateConnection_of_not_manual hengine, hqueued, if_neg hstays, if_neg hstays,
      List.append_nil]
    exact h

/-- Shutting down takes the link down for good. -/
theorem shutdown (h : c.Announcing commands missed) (more : List Command)
    (hmore : c.engine = .stopped → more = commands) : c.shutdown.Announcing more missed := by
  by_cases hengine : c.engine = .stopped
  · rw [shutdown_of_stopped hengine, hmore hengine]
    exact h
  · rw [shutdown_of_running hengine]
    refine ⟨⟨h.orderly.idle, h.orderly.nextNonce⟩, ?_, h.size, fun hc => ?_, fun _ => ⟨rfl, rfl⟩,
      fun hup => ?_, fun hup => ?_⟩
    · constructor
      · intro hup
        cases hup
      · intro hup
        cases hup
    · cases hc
    · cases hup
    · cases hup

end Announcing

theorem announcing_perform {c : Client (Recorded τ) α} {commands : List Command}
    {missed : List Subscription} (h : c.Announcing commands missed) (op : Op τ α) :
    (c.perform op).2.Announcing (c.sinceUpAfter commands op) (c.missedAfter missed op) := by
  cases op with
  | act a =>
    cases a with
    | updateHandlers handlers =>
      cases hc : c.session.closed with
      | true =>
        have hflags : c.session.flags = (c.session.subscriptions, false, c.session.closed) := by
          have hdown : c.session.connected = false := (h.closed hc).1
          rw [Session.flags, hdown]
        change (c.updateHandlers handlers).Announcing _ _
        rw [updateHandlers_of_closed hc]
        exact h.of_down c h.orderly h.synced h.spacious hflags rfl rfl _ _
      | false =>
        have hconnected : (c.updateHandlers handlers).session.connected = c.session.connected := by
          rw [updateHandlers_of_open hc]
          exact (Session.of_flags (c.session.flags_resubscribe handlers.subscriptions)).2.1
        have hkept : ¬ c.ComesUp (c.perform (.act (.updateHandlers handlers))).2 :=
          not_comesUp hconnected
        rw [sinceUpAfter, if_neg hkept, queuedBy, hc]
        exact h.updateHandlers hc handlers
    | updateConnection now => exact h.updateConnection now
    | updatePresence p =>
      have hkept : ¬ c.ComesUp (c.perform (.act (.updatePresence p))).2 :=
        not_comesUp (Session.of_flags (c.session.flags_setActivity (some p))).2.1
      rw [sinceUpAfter, if_neg hkept]
      exact h.setActivity (some p)
    | clearPresence =>
      have hkept : ¬ c.ComesUp (c.perform (.act .clearPresence)).2 :=
        not_comesUp (Session.of_flags (c.session.flags_setActivity none)).2.1
      rw [sinceUpAfter, if_neg hkept]
      exact h.setActivity none
    | runCallbacks =>
      have hkept : ¬ c.ComesUp (c.perform (.act .runCallbacks)).2 := not_comesUp rfl
      rw [sinceUpAfter, if_neg hkept]
      exact h.keep c.runCallbacks.2 ⟨h.orderly.idle, h.orderly.nextNonce⟩
        ⟨h.spacious.queue, h.size⟩ rfl rfl rfl rfl (List.append_nil _).symm
        fun _ _ => List.not_mem_nil
    | world change =>
      have hkept : ¬ c.ComesUp (c.perform (.act (.world change))).2 := not_comesUp rfl
      rw [sinceUpAfter, if_neg hkept]
      exact h.keep (c.act (.world change)) h.orderly h.spacious rfl rfl rfl rfl
        (List.append_nil _).symm fun _ _ => List.not_mem_nil
  | register k =>
    have hkept : ¬ c.ComesUp (c.perform (.register k)).2 :=
      not_comesUp (Session.of_flags (c.session.flags_register k)).2.1
    rw [sinceUpAfter, if_neg hkept]
    exact h.register k
  | shutdown =>
    refine h.shutdown _ fun hengine => ?_
    have hkept : ¬ c.ComesUp (c.perform .shutdown).2 := by
      change ¬ c.ComesUp c.shutdown
      rw [shutdown_of_stopped hengine]
      exact not_comesUp rfl
    rw [sinceUpAfter, if_neg hkept]
    exact List.append_nil _

theorem announcing_performAll {c : Client (Recorded τ) α} {commands : List Command}
    {missed : List Subscription} (h : c.Announcing commands missed) (ops : List (Op τ α)) :
    (c.performAll ops).2.Announcing (c.sinceUp commands ops) (c.missed missed ops) := by
  induction ops generalizing c commands missed with
  | nil => exact h
  | cons op ops ih => exact ih (announcing_perform h op)

omit [Transport τ] in
theorem announcing_start {t : τ} {config : Config} {handlers : Handlers α} {pid : UInt32}
    {now : Instant} {c : Client (Recorded τ) α}
    (h : start (.ofTransport t) config handlers pid now = .ok c) : c.Announcing [] [] := by
  have hfollowing := following_start h
  obtain ⟨-, rfl⟩ := start_eq_ok_iff.1 h
  have hdown : ¬ (fresh (Recorded.ofTransport t) config handlers pid now).isConnected = true :=
    Bool.false_ne_true
  refine ⟨hfollowing.orderly, hfollowing.synced, ?_, fun _ => hfollowing.handled, fun hc => ?_,
    fun hup => absurd hup hdown, fun hup => absurd hup hdown⟩
  · exact Nat.le_trans (Nat.le_max_right config.maxMessageSize 256) (Nat.le_max_left ..)
  · cases hc

omit [Transport τ] in
/-- A kind that is granted is queued or has a handler. -/
theorem Announcing.of_register {c : Client (Recorded τ) α} {commands : List Command}
    {missed : List Subscription} (h : c.Announcing commands missed) (hup : c.isConnected = true)
    {k : Subscription} (hk : (c.register k).1 = true) :
    Announced (commands ++ (c.session.act (.register k)).1) k ∨
      (c.handlers.handles k = true ∧ k ∈ missed) := by
  have hopen := h.opened hup
  cases hc : c.session.subscriptions.contains k with
  | true =>
    have hhandled : c.handlers.handles k = true := by
      rw [← c.handlers.contains_subscriptions, ← h.handled hopen]
      exact hc
    rw [Session.act, if_pos hc, List.append_nil]
    exact (h.announced hup k hhandled).imp_right fun hm => ⟨hhandled, hm⟩
  | false =>
    have hqueued : (c.session.register k).1 = (c.session.subscribe k).1.isSome := by
      simp only [Session.register, hopen, hc, Bool.false_eq_true, ↓reduceIte]
    obtain ⟨command, hcommand⟩ := Option.isSome_iff_exists.1 (hqueued.symm.trans hk)
    obtain ⟨n, rfl⟩ := Session.submit_eq_some hcommand
    left
    rw [Session.act, if_neg (by simp [hc]), hcommand]
    exact Announced.of_mem List.mem_cons_self (by simp) commands

/-- **Every handled kind is announced, as far as there were free slots.** On a
link that is up, what the peer has been sent on it and what waits for it ends
with the commands queued since it came up. They announce every handled kind but
the missed ones, for which no slot was free when the link came up or their
handler was installed. A kind that the client agrees to register is then
announced as well, or it is a missed one. -/
theorem handled_announced (t : τ) (config : Config) (handlers : Handlers α) (pid : UInt32)
    (now : Instant) {c : Client (Recorded τ) α}
    (hs : start (.ofTransport t) config handlers pid now = .ok c) (ops : List (Op τ α)) :
    let r := (c.performAll ops).2
    let commands := c.sinceUp [] ops
    let missed := c.missed [] ops
    r.isConnected = true →
      (∃ older, r.requests = older ++ commands.map Command.encode) ∧
      (∀ k, r.handlers.handles k = true → Announced commands k ∨ k ∈ missed) ∧
      ∀ k, (r.register k).1 = true →
        Announced (commands ++ r.queuedBy (.register k : Op τ α)) k ∨
          (r.handlers.handles k = true ∧ k ∈ missed) := by
  intro r commands missed hup
  have h : r.Announcing commands missed := announcing_performAll (announcing_start hs) ops
  exact ⟨h.sent hup, h.announced hup, fun k hk => h.of_register hup hk⟩

/-- A link that comes up with free slots, and a handler that is announced. -/
theorem one_kind_announced :
    let now : Instant := .zero
    let config := ((Config.ofApplicationId "1").withDrive .manual).withMaxMessageSize 256
    let ops : List (Op Script Unit) := [.act .clearPresence, .act (.updateConnection now)]
    ∃ c, start (.ofTransport ({} : Script)) config { joinGame := some fun _ => () } 1 now = .ok c ∧
      (c.performAll ops).2.isConnected = true ∧ c.missed [] ops = [] ∧
      Announced (c.sinceUp [] ops) .joinGame := by
  intro now config ops
  let handlers : Handlers Unit := { joinGame := some fun _ => () }
  let c := fresh (Recorded.ofTransport ({} : Script)) config handlers 1 now
  have hvalid : config.validate = none := by decide +kernel
  have hs : start (Recorded.ofTransport ({} : Script)) config handlers 1 now = .ok c :=
    start_eq_ok_iff.2 ⟨hvalid, rfl⟩
  have hup : (c.performAll ops).2.isConnected = true := by decide +kernel
  have hmissed : c.missed [] ops = [] := by decide +kernel
  have hhandled : (c.performAll ops).2.handlers.handles .joinGame = true := by decide +kernel
  obtain ⟨-, hannounced, -⟩ :=
    handled_announced ({} : Script) config handlers 1 now hs ops hup
  refine ⟨c, hs, hup, hmissed, (hannounced _ hhandled).resolve_right ?_⟩
  rw [hmissed]
  exact List.not_mem_nil

/-- A presence takes the only slot before the link comes up: there is none for
the subscription, and still the client agrees to register the kind. Nothing is
queued for it. -/
theorem missed_kind_registered :
    let now : Instant := .zero
    let config := (((Config.ofApplicationId "1").withDrive .manual).withQueueSlots
      1).withMaxMessageSize 256
    let ops : List (Op Script Unit) := [.act .clearPresence, .act (.updateConnection now)]
    ∃ c, start (.ofTransport ({} : Script)) config { joinGame := some fun _ => () } 1 now = .ok c ∧
      (c.performAll ops).2.isConnected = true ∧
      (c.performAll ops).2.handlers.handles .joinGame = true ∧
      ((c.performAll ops).2.register .joinGame).1 = true ∧
      ((c.performAll ops).2.register .joinGame).2.requests =
        [(Command.setActivity 1 1 none).encode] ∧
      ¬ Announced (c.sinceUp [] (ops ++ [.register .joinGame])) .joinGame := by
  intro now config ops
  let c := fresh (Recorded.ofTransport ({} : Script)) config { joinGame := some fun _ => () } 1 now
  have hvalid : config.validate = none := by decide +kernel
  have hnone : c.sinceUp [] (ops ++ [.register .joinGame]) = [] := by decide +kernel
  refine ⟨c, start_eq_ok_iff.2 ⟨hvalid, rfl⟩, by decide +kernel, by decide +kernel,
    by decide +kernel, by decide +kernel, ?_⟩
  rw [hnone]
  rintro ⟨older, n, newer, he, -⟩
  simp at he

end Client

end PresenceLink
