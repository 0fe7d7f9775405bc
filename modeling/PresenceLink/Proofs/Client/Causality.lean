import PresenceLink.Proofs.Client.Callbacks

/-!
# What the callbacks show of the link

Connections and losses wait in two cells of the mailbox, and the callbacks look
at a loss first. Whatever happened between two runs of the callbacks, a
connection is shown behind all losses, even behind its own. So what is shown
last is right about a link that is up. Of a link that was lost it still shows
the connection, until a loss is reported behind callbacks that have shown it.

* `Sight.shown_after_last_up`, `shown_of_linkAfter`: what is shown of a timeline
  of connections and losses;
* `sight_performAll`: the handlers of a run show what its timeline shows;
* `isConnected_performAll`: the link is up if it came up last;
* `callbacks_show_link`: the two together;
* `callbacks_show_lost_link_ready`: a link that is shown as ready when it is
  lost.
-/

namespace PresenceLink

/-- What a run does that concerns the link: it comes up, a loss is reported, and
the callbacks are run. -/
inductive Moment where
  | up
  | down
  | callbacks
  deriving DecidableEq, Repr

def Event.moment? : Event → Option Moment
  | connected => some .up
  | disconnected .. => some .down
  | _ => none

/-- The callbacks were run and a loss was reported later. -/
def LossAfterCallbacks (timeline : List Moment) : Prop :=
  ∃ seen later, timeline = seen ++ .callbacks :: later ∧ .down ∈ later

theorem lossAfterCallbacks_nil : ¬ LossAfterCallbacks [] := by
  rintro ⟨seen, later, h, -⟩
  cases seen <;> cases h

theorem lossAfterCallbacks_callbacks (timeline : List Moment) :
    LossAfterCallbacks (.callbacks :: timeline) ↔ .down ∈ timeline := by
  constructor
  · rintro ⟨seen, later, h, hdown⟩
    cases seen with
    | nil =>
      obtain ⟨-, rfl⟩ := List.cons.inj h
      exact hdown
    | cons m seen =>
      obtain ⟨-, rfl⟩ := List.cons.inj h
      exact List.mem_append_right _ (List.mem_cons_of_mem _ hdown)
  · exact fun hdown => ⟨[], timeline, rfl, hdown⟩

theorem lossAfterCallbacks_cons {m : Moment} (hm : m ≠ .callbacks) (timeline : List Moment) :
    LossAfterCallbacks (m :: timeline) ↔ LossAfterCallbacks timeline := by
  constructor
  · rintro ⟨seen, later, h, hdown⟩
    cases seen with
    | nil => exact absurd (List.cons.inj h).1 hm
    | cons m' seen => exact ⟨seen, later, (List.cons.inj h).2, hdown⟩
  · rintro ⟨seen, later, rfl, hdown⟩
    exact ⟨m :: seen, later, rfl, hdown⟩

/-! ## What a timeline shows -/

/-- The events of the link that wait, and the kind that was shown last. -/
structure Sight where
  up : Bool
  down : Bool
  last : Option EventKind

namespace Sight

/-- What is shown last by callbacks that are run now. -/
def shown (s : Sight) : Option EventKind :=
  if s.up then some .connected else if s.down then some .disconnected else s.last

def next (s : Sight) : Moment → Sight
  | .up => { s with up := true }
  | .down => { s with down := true }
  | .callbacks => { up := false, down := false, last := s.shown }

def after (s : Sight) (timeline : List Moment) : Sight := timeline.foldl next s

theorem after_append (s : Sight) (timeline more : List Moment) :
    s.after (timeline ++ more) = (s.after timeline).after more := List.foldl_append

/-- Without a new connection a loss is shown if there is one. -/
theorem shown_after {s : Sight} (hs : s.up = false) {timeline : List Moment}
    (hup : .up ∉ timeline) :
    (s.after timeline).shown =
      if s.down = true ∨ .down ∈ timeline then some .disconnected else s.last := by
  induction timeline generalizing s with
  | nil => cases hdown : s.down <;> simp [after, shown, hs, hdown]
  | cons m timeline ih =>
    rw [List.mem_cons, not_or] at hup
    obtain ⟨hm, hup⟩ := hup
    cases m with
    | up => exact absurd rfl hm
    | down =>
      refine (ih (s := s.next .down) hs hup).trans ?_
      simp [next]
    | callbacks =>
      refine (ih (s := s.next .callbacks) rfl hup).trans ?_
      by_cases hdown : .down ∈ timeline
      · simp [hdown]
      · simp [next, shown, hs, hdown]

/-- A connection is shown until a loss is reported that is not shown before
it. -/
theorem shown_after_up {s : Sight} (hs : s.up = true) {timeline : List Moment}
    (hup : .up ∉ timeline) :
    (LossAfterCallbacks timeline ∧ (s.after timeline).shown = some .disconnected) ∨
      (¬ LossAfterCallbacks timeline ∧ (s.after timeline).shown = some .connected) := by
  induction timeline generalizing s with
  | nil => exact Or.inr ⟨lossAfterCallbacks_nil, by simp [after, shown, hs]⟩
  | cons m timeline ih =>
    rw [List.mem_cons, not_or] at hup
    obtain ⟨hm, hup⟩ := hup
    cases m with
    | up => exact absurd rfl hm
    | down =>
      rw [lossAfterCallbacks_cons Moment.noConfusion]
      exact ih (s := s.next .down) hs hup
    | callbacks =>
      have hshown : (s.after (.callbacks :: timeline)).shown = _ :=
        shown_after (s := s.next .callbacks) rfl hup
      rw [lossAfterCallbacks_callbacks, hshown]
      by_cases hdown : .down ∈ timeline
      · exact Or.inl ⟨hdown, by simp [hdown]⟩
      · exact Or.inr ⟨hdown, by simp [next, shown, hs, hdown]⟩

/-- Behind the last connection only losses and callbacks matter. -/
theorem shown_after_last_up (s : Sight) (before : List Moment) {after : List Moment}
    (hup : .up ∉ after) :
    (LossAfterCallbacks after ∧
        (s.after (before ++ .up :: after)).shown = some .disconnected) ∨
      (¬ LossAfterCallbacks after ∧
        (s.after (before ++ .up :: after)).shown = some .connected) := by
  rw [after_append]
  exact shown_after_up (s := (s.after before).next .up) rfl hup

end Sight

/-- Whether the link is up after a timeline. -/
def linkAfter (up : Bool) (timeline : List Moment) : Bool :=
  timeline.foldl (fun up m => match m with
    | .up => true
    | .down => false
    | .callbacks => up) up

theorem linkAfter_append (up : Bool) (timeline more : List Moment) :
    linkAfter up (timeline ++ more) = linkAfter (linkAfter up timeline) more := List.foldl_append

/-- The link is up if nothing has happened to it since it came up. -/
theorem linkAfter_iff (up : Bool) (timeline : List Moment) :
    linkAfter up timeline = true ↔ (up = true ∧ .up ∉ timeline ∧ .down ∉ timeline) ∨
      ∃ before after, timeline = before ++ .up :: after ∧ .up ∉ after ∧ .down ∉ after := by
  induction timeline generalizing up with
  | nil => simp [linkAfter]
  | cons m timeline ih =>
    have hstep : (∃ before after, m :: timeline = before ++ .up :: after ∧ .up ∉ after ∧
        .down ∉ after) ↔ (m = .up ∧ .up ∉ timeline ∧ .down ∉ timeline) ∨
          ∃ before after, timeline = before ++ .up :: after ∧ .up ∉ after ∧ .down ∉ after := by
      constructor
      · rintro ⟨before, after, h, hafter⟩
        cases before with
        | nil =>
          obtain ⟨rfl, rfl⟩ := List.cons.inj h
          exact Or.inl ⟨rfl, hafter⟩
        | cons m' before => exact Or.inr ⟨before, after, (List.cons.inj h).2, hafter⟩
      · rintro (⟨rfl, hafter⟩ | ⟨before, after, rfl, hafter⟩)
        · exact ⟨[], timeline, rfl, hafter⟩
        · exact ⟨m :: before, after, rfl, hafter⟩
    rw [hstep]
    cases m with
    | up =>
      refine (ih true).trans ?_
      simp
    | down =>
      refine (ih false).trans ?_
      simp
    | callbacks =>
      refine (ih up).trans ?_
      simp

/-- A link that is up is shown as connected. -/
theorem shown_of_linkAfter (s : Sight) {timeline : List Moment}
    (h : linkAfter false timeline = true) : (s.after timeline).shown = some .connected := by
  rcases (linkAfter_iff false timeline).1 h with ⟨hfalse, -⟩ | ⟨before, after, rfl, hup, hdown⟩
  · cases hfalse
  · rcases s.shown_after_last_up before hup with ⟨⟨seen, later, rfl, hlater⟩, -⟩ | ⟨-, hshown⟩
    · exact absurd (List.mem_append_right seen (List.mem_cons_of_mem _ hlater)) hdown
    · exact hshown

/-! ## Which handlers are called -/

def EventKind.isLink : EventKind → Bool
  | connected | disconnected => true
  | _ => false

theorem kind_of_latest {events : List Event} {k : EventKind} {e : Event}
    (h : latest events k = some e) : e.kind = k := by
  have hmem := List.mem_of_getLast? h
  exact of_decide_eq_true (List.mem_filter.1 hmem).2

/-- The last of the handlers of the link that was called. -/
def lastShown {α : Type} (calls : List (EventKind × α)) : Option EventKind :=
  ((calls.map Prod.fst).filter EventKind.isLink).getLast?

theorem lastShown_append {α : Type} (calls more : List (EventKind × α)) :
    lastShown (calls ++ more) = (lastShown more).or (lastShown calls) := by
  rw [lastShown, List.map_append, List.filter_append, List.getLast?_append, lastShown, lastShown]

namespace Handlers

variable {α : Type}

/-- Both handlers of the link are installed. -/
def WatchesLink (h : Handlers α) : Prop := h.ready.isSome = true ∧ h.disconnected.isSome = true

/-- The handlers with their kinds beside their actions. -/
def tagged (h : Handlers α) : Handlers (EventKind × α) where
  ready := h.ready.map fun a => (.connected, a)
  disconnected := h.disconnected.map fun f code message => (.disconnected, f code message)
  errored := h.errored.map fun f code message => (.errored, f code message)
  presenceRequested := h.presenceRequested.map fun a => (.presenceRequested, a)
  joinGame := h.joinGame.map fun f secret => (.joinGame, f secret)
  spectateGame := h.spectateGame.map fun f secret => (.spectateGame, f secret)

theorem answer_tagged (h : Handlers α) (e : Event) :
    h.tagged.answer e = (h.answer e).map fun a => (e.kind, a) := by
  cases e <;> simp [answer, tagged, Event.kind, Function.comp_def]

theorem runKinds_tagged (h : Handlers α) (kinds : List EventKind) (m : Mailbox) :
    (h.tagged.runKinds kinds m).1.map Prod.snd = (h.runKinds kinds m).1 := by
  induction kinds generalizing m with
  | nil => rfl
  | cons k kinds ih =>
    have hcall : ((m.take k).1.bind h.tagged.call).map Prod.snd = (m.take k).1.bind h.call := by
      cases (m.take k).1 with
      | none => rfl
      | some d => simp [call_eq_answer, answer_tagged, Function.comp_def]
    simp only [runKinds, List.map_append, ih]
    rw [← hcall]
    cases (m.take k).1.bind h.tagged.call <;> rfl

theorem respond_tagged (h : Handlers α) (events : List Event) (k : EventKind) :
    h.tagged.respond (latest events) k = (h.respond (latest events) k).map fun a => (k, a) := by
  unfold respond
  cases hl : latest events k with
  | none => rfl
  | some e =>
    have hk : e.clip.kind = k := by
      rw [← kind_of_latest hl]
      cases e <;> rfl
    rw [Option.bind_some, Option.bind_some, answer_tagged, hk]

/-- A handler of the link is called if there is an event for it. -/
theorem isSome_respond {h : Handlers α} (hh : h.WatchesLink) (events : List Event) {k : EventKind}
    (hk : k.isLink = true) :
    (h.respond (latest events) k).isSome = (latest events k).isSome := by
  unfold respond
  cases hl : latest events k with
  | none => rfl
  | some e =>
    have hkind := kind_of_latest hl
    subst hkind
    cases e with
    | connected => exact hh.1
    | disconnected code message =>
      rw [Option.bind_some, Event.clip, answer, Option.isSome_map]
      exact hh.2
    | _ => cases hk

/-- The kinds of the handlers that are called. -/
theorem kinds_respond (h : Handlers α) (events : List Event) (kinds : List EventKind) :
    (kinds.filterMap (h.tagged.respond (latest events))).map Prod.fst =
      kinds.filter fun k => (h.respond (latest events) k).isSome := by
  induction kinds with
  | nil => rfl
  | cons k kinds ih =>
    rw [List.filterMap_cons, List.filter_cons, respond_tagged]
    cases h.respond (latest events) k with
    | none => exact ih
    | some a => exact congrArg (k :: ·) ih

/-- Running the registry shows what has waited. -/
theorem lastShown_run {h : Handlers α} (hh : h.WatchesLink) {m : Mailbox} {events : List Event}
    (hm : m.Holds (latest events)) :
    lastShown (h.tagged.run m).1 =
      if (latest events .connected).isSome then some .connected
      else if (latest events .disconnected).isSome then some .disconnected else none := by
  have hlink : dispatchOrder.filter EventKind.isLink = [.disconnected, .connected] := rfl
  rw [lastShown, (h.tagged.run_of_holds hm).1, kinds_respond, List.filter_comm, hlink,
    List.filter_cons, List.filter_cons, isSome_respond hh events rfl, isSome_respond hh events rfl]
  cases (latest events .connected).isSome <;> cases (latest events .disconnected).isSome <;> rfl

end Handlers

/-! ## The link -/

theorem moments_eventsOf (payloads : List Bytes) :
    (eventsOf payloads).filterMap Event.moment? = [] := by
  rw [List.filterMap_eq_nil_iff]
  intro e he
  obtain ⟨payload, -, hpayload⟩ := List.mem_filterMap.1 he
  obtain ⟨event, -, rfl⟩ := Option.map_eq_some_iff.1 hpayload
  cases event <;> rfl

/-- What a tick publishes tells whether the link is up behind it. -/
theorem TickStep.linkAfter_iff {due isOpen : Bool} {ready : List Bytes} {state state' : LinkState}
    {calls : List Call} {events : List Event}
    (h : TickStep due isOpen ready state calls events state') {up : Bool}
    (hup : state = .connected ↔ up = true) :
    linkAfter up (events.filterMap Event.moment?) = true ↔ state' = .connected := by
  cases h with
  | waits h hdue => exact hup.symm
  | opens h hdue => exact ⟨fun _ => rfl, fun _ => rfl⟩
  | pends h hdue =>
    constructor
    · exact fun hlink => absurd (hup.2 hlink) h
    · exact LinkState.noConfusion
  | refused e hdue => exact hup.symm
  | fails e hdue => exact ⟨Bool.noConfusion, LinkState.noConfusion⟩
  | gone ho => exact ⟨Bool.noConfusion, LinkState.noConfusion⟩
  | unreadable ho payloads e =>
    rw [List.filterMap_append, moments_eventsOf]
    exact ⟨Bool.noConfusion, LinkState.noConfusion⟩
  | serves ho payloads hb hq =>
    rw [moments_eventsOf]
    exact hup.symm
  | unwritable ho payloads hb hq =>
    rw [List.filterMap_append, moments_eventsOf]
    exact ⟨Bool.noConfusion, LinkState.noConfusion⟩

namespace Client

variable {τ α : Type} [Transport τ]

/-- What an operation does that concerns the link. -/
def moments (c : Client (Recorded τ) α) : Op τ α → List Moment
  | .act .runCallbacks => [.callbacks]
  | op => (c.published op).filterMap Event.moment?

def timeline (c : Client (Recorded τ) α) : List (Op τ α) → List Moment
  | [] => []
  | op :: ops => c.moments op ++ (c.perform op).2.timeline ops

/-- The kinds of the handlers that an operation calls, with their actions. -/
def called (c : Client (Recorded τ) α) : Op τ α → List (EventKind × α)
  | .act .runCallbacks => (c.handlers.tagged.run c.session.mailbox).1
  | _ => []

def log (c : Client (Recorded τ) α) : List (Op τ α) → List (EventKind × α)
  | [] => []
  | op :: ops => c.called op ++ (c.perform op).2.log ops

theorem moments_of_ne (c : Client (Recorded τ) α) {op : Op τ α} (hop : op ≠ .act .runCallbacks) :
    c.moments op = (c.published op).filterMap Event.moment? := by
  unfold moments
  split
  · exact absurd rfl hop
  · rfl

omit [Transport τ] in
theorem called_of_ne (c : Client (Recorded τ) α) {op : Op τ α} (hop : op ≠ .act .runCallbacks) :
    c.called op = [] := by
  unfold called
  split
  · exact absurd rfl hop
  · rfl

theorem performAll_append (c : Client (Recorded τ) α) (ops more : List (Op τ α)) :
    (c.performAll (ops ++ more)).2 = ((c.performAll ops).2.performAll more).2 := by
  induction ops generalizing c with
  | nil => rfl
  | cons op ops ih => exact ih (c.perform op).2

theorem log_append (c : Client (Recorded τ) α) (ops more : List (Op τ α)) :
    c.log (ops ++ more) = c.log ops ++ (c.performAll ops).2.log more := by
  induction ops generalizing c with
  | nil => rfl
  | cons op ops ih =>
    refine (congrArg (c.called op ++ ·) (ih (c.perform op).2)).trans ?_
    exact (List.append_assoc ..).symm

/-- The log has the actions of the run. -/
theorem log_actions (c : Client (Recorded τ) α) (ops : List (Op τ α)) :
    (c.log ops).map Prod.snd = (c.performAll ops).1 := by
  induction ops generalizing c with
  | nil => rfl
  | cons op ops ih =>
    have hop : (c.called op).map Prod.snd = (c.perform op).1 := by
      by_cases hop : op = .act .runCallbacks
      · rw [hop]
        exact c.handlers.runKinds_tagged Handlers.dispatchOrder c.session.mailbox
      · rw [c.called_of_ne hop, c.actions_perform hop, List.map_nil]
    have hrest := ih (c.perform op).2
    rw [log, List.map_append, hop, hrest]
    rfl

/-- The session and the supervisor agree, and the queue is in order. -/
structure Steady (c : Client (Recorded τ) α) : Prop where
  orderly : c.session.Orderly
  synced : c.supervisor.Synced

omit [Transport τ] in
theorem Steady.keep {c c' : Client (Recorded τ) α} (h : c.Steady) (horderly : c'.session.Orderly)
    (hstate : c'.supervisor.state = c.supervisor.state)
    (hflags : c'.session.connected = c.session.connected) :
    c'.Steady ∧ c'.isConnected = c.isConnected :=
  ⟨⟨horderly, h.synced.of_eq hstate hflags⟩, hflags⟩

theorem Steady.updateConnection {c : Client (Recorded τ) α} (h : c.Steady) (now : Instant) :
    (c.updateConnection now).Steady ∧ (c.updateConnection now).isConnected =
      linkAfter c.isConnected (c.moments (.act (.updateConnection now))) := by
  unfold moments published Client.updateConnection
  cases c.engine with
  | thread => exact ⟨⟨h.orderly, h.synced⟩, rfl⟩
  | stopped => exact ⟨⟨h.orderly, h.synced⟩, rfl⟩
  | manual =>
    obtain ⟨batch, hmoves⟩ := Supervisor.moves_tick h.orderly now
    obtain ⟨hsynced, -⟩ := Supervisor.linkStep_advance h.orderly h.synced now
    obtain ⟨calls, -, hstep⟩ := Supervisor.tickStep_advance h.orderly.idle.wellFormed now
    refine ⟨⟨hmoves.orderly, hsynced⟩, ?_⟩
    rw [Bool.eq_iff_iff]
    exact hsynced.symm.trans (hstep.linkAfter_iff h.synced).symm

/-- The link changes as it is told of. -/
theorem Steady.perform {c : Client (Recorded τ) α} (h : c.Steady) {op : Op τ α}
    (hop : op ≠ .shutdown) :
    (c.perform op).2.Steady ∧
      (c.perform op).2.isConnected = linkAfter c.isConnected (c.moments op) := by
  cases op with
  | act a =>
    cases a with
    | updateHandlers handlers =>
      change (c.updateHandlers handlers).Steady ∧ (c.updateHandlers handlers).isConnected = _
      cases hclosed : c.session.closed with
      | true =>
        rw [updateHandlers_of_closed hclosed]
        exact ⟨h, rfl⟩
      | false =>
        have hqueues := Session.Queues.resubscribe h.orderly handlers.subscriptions
        have hflags := c.session.flags_resubscribe handlers.subscriptions
        rw [updateHandlers_of_open hclosed]
        exact h.keep hqueues.orderly rfl (Session.of_flags hflags).2.1
    | updateConnection now => exact h.updateConnection now
    | updatePresence p =>
      have hflags := c.session.flags_setActivity (some p)
      exact h.keep (Session.Queues.setActivity h.orderly (some p)).orderly rfl
        (Session.of_flags hflags).2.1
    | clearPresence =>
      have hflags := c.session.flags_setActivity none
      exact h.keep (Session.Queues.setActivity h.orderly none).orderly rfl
        (Session.of_flags hflags).2.1
    | runCallbacks => exact ⟨⟨⟨h.orderly.idle, h.orderly.nextNonce⟩, h.synced⟩, rfl⟩
    | world change => exact ⟨⟨h.orderly, h.synced⟩, rfl⟩
  | register k =>
    have hqueues := Session.Queues.act h.orderly (.register k)
    exact h.keep hqueues.orderly rfl (Session.of_flags (c.session.flags_register k)).2.1
  | shutdown => exact absurd rfl hop

theorem isConnected_performAll {c : Client (Recorded τ) α} (h : c.Steady) {ops : List (Op τ α)}
    (hops : .shutdown ∉ ops) :
    (c.performAll ops).2.isConnected = linkAfter c.isConnected (c.timeline ops) := by
  induction ops generalizing c with
  | nil => rfl
  | cons op ops ih =>
    rw [List.mem_cons, not_or] at hops
    obtain ⟨hop, hops⟩ := hops
    obtain ⟨hsteady, hlink⟩ := h.perform (Ne.symm hop)
    rw [timeline, linkAfter_append, ← hlink]
    exact ih hsteady hops

/-! ## The handlers of a run -/

/-- What waits for the handlers of the link, and what was shown last. -/
def sight (events : List Event) (last : Option EventKind) : Sight where
  up := (latest events .connected).isSome
  down := (latest events .disconnected).isSome
  last

/-- Published events wait. -/
theorem sight_append (events more : List Event) (last : Option EventKind) :
    (sight events last).after (more.filterMap Event.moment?) = sight (events ++ more) last := by
  induction more generalizing events with
  | nil => rw [List.append_nil]; rfl
  | cons e more ih =>
    rw [List.append_cons, ← ih, sight, sight, latest_append_singleton]
    cases e <;> rfl

theorem shown_sight {h : Handlers α} (hh : h.WatchesLink) {m : Mailbox} {events : List Event}
    (hm : m.Holds (latest events)) (last : Option EventKind) :
    (sight events last).shown = (lastShown (h.tagged.run m).1).or last := by
  rw [Handlers.lastShown_run hh hm, Sight.shown, sight]
  cases (latest events .connected).isSome <;> cases (latest events .disconnected).isSome <;> rfl

theorem sight_perform {c : Client (Recorded τ) α} (hh : c.handlers.WatchesLink)
    {events : List Event} (hm : c.session.mailbox.Holds (latest events)) (op : Op τ α)
    (last : Option EventKind) :
    (sight events last).after (c.moments op) =
      sight (c.unseenAfter events op) ((lastShown (c.called op)).or last) := by
  by_cases hop : op = .act .runCallbacks
  · rw [hop]
    exact congrArg (Sight.mk false false) (shown_sight hh hm last)
  · rw [c.moments_of_ne hop, c.unseenAfter_of_ne events hop, c.called_of_ne hop, sight_append]
    rfl

theorem watchesLink_perform {c : Client (Recorded τ) α} (hclosed : c.session.closed = false)
    (hh : c.handlers.WatchesLink) {op : Op τ α} (hop : op ≠ .shutdown)
    (hupdate : ∀ next, op = .act (.updateHandlers next) → next.WatchesLink) :
    (c.perform op).2.handlers.WatchesLink := by
  by_cases hnext : ∃ next, op = .act (.updateHandlers next)
  · obtain ⟨next, rfl⟩ := hnext
    have hhandlers : (c.updateHandlers next).handlers = next :=
      congrArg handlers (updateHandlers_of_open hclosed next)
    change (c.updateHandlers next).handlers.WatchesLink
    rw [hhandlers]
    exact hupdate next rfl
  · rw [handlers_perform c hop fun next h => hnext ⟨next, h⟩]
    exact hh

/-- The handlers of a run show what its timeline shows. -/
theorem sight_performAll {c : Client (Recorded τ) α} (hclosed : c.session.closed = false)
    (hh : c.handlers.WatchesLink) {events : List Event}
    (hm : c.session.mailbox.Holds (latest events)) {ops : List (Op τ α)} (hops : .shutdown ∉ ops)
    (hupdates : ∀ next, .act (.updateHandlers next) ∈ ops → next.WatchesLink)
    (last : Option EventKind) :
    (c.performAll ops).2.handlers.WatchesLink ∧
      (sight events last).after (c.timeline ops) =
        sight (c.unseen events ops) ((lastShown (c.log ops)).or last) := by
  induction ops generalizing c events last with
  | nil => exact ⟨hh, rfl⟩
  | cons op ops ih =>
    rw [List.mem_cons, not_or] at hops
    obtain ⟨hop, hops⟩ := hops
    have hwatch := watchesLink_perform hclosed hh (Ne.symm hop)
      fun next h => hupdates next (h ▸ List.mem_cons_self)
    have hopen := (open_perform c (Ne.symm hop)).1.trans hclosed
    obtain ⟨hwatches, hrest⟩ := ih hopen hwatch (holds_perform hm op) hops
      (fun next h => hupdates next (List.mem_cons_of_mem _ h)) ((lastShown (c.called op)).or last)
    refine ⟨hwatches, ?_⟩
    rw [timeline, Sight.after_append, sight_perform hh hm, hrest, log, lastShown_append,
      Option.or_assoc]
    rfl

/-- What is shown when the callbacks have been run. -/
theorem shown_performAll {c : Client (Recorded τ) α} (hclosed : c.session.closed = false)
    (hh : c.handlers.WatchesLink) (hm : c.session.mailbox.Holds (latest [])) {ops : List (Op τ α)}
    (hops : .shutdown ∉ ops)
    (hupdates : ∀ next, .act (.updateHandlers next) ∈ ops → next.WatchesLink) :
    lastShown (c.log (ops ++ [.act .runCallbacks])) =
      ((sight [] none).after (c.timeline ops)).shown := by
  obtain ⟨hwatch, hsight⟩ := sight_performAll hclosed hh hm hops hupdates none
  have hlast : (c.performAll ops).2.log [.act .runCallbacks] =
      (c.performAll ops).2.called (.act .runCallbacks) := List.append_nil _
  rw [hsight, shown_sight hwatch (holds_performAll hm ops), Option.or_none, log_append,
    lastShown_append, hlast]
  rfl

/-- **The callbacks show the link as it was last connected.** As long as both
handlers of the link are installed, the last of them that was called when the
callbacks have been run is the one for a connection if the link is up. If the
link is down after a connection, it is the one for a loss exactly if a loss was
reported after callbacks that were run since that connection. -/
theorem callbacks_show_link (t : τ) (config : Config) {handlers : Handlers α} (pid : UInt32)
    (now : Instant) {c : Client (Recorded τ) α}
    (hs : start (.ofTransport t) config handlers pid now = .ok c) (hh : handlers.WatchesLink)
    {ops : List (Op τ α)} (hops : .shutdown ∉ ops)
    (hupdates : ∀ next, .act (.updateHandlers next) ∈ ops → next.WatchesLink) :
    let run := ops ++ [.act .runCallbacks]
    let up := (c.performAll run).2.isConnected
    let shown := lastShown (c.log run)
    (c.log run).map Prod.snd = (c.performAll run).1 ∧
      (up = true ↔ ∃ before after,
        c.timeline ops = before ++ .up :: after ∧ .up ∉ after ∧ .down ∉ after) ∧
      (up = true → shown = some .connected) ∧
      (up = false → ∀ before after, c.timeline ops = before ++ .up :: after → .up ∉ after →
        (LossAfterCallbacks after ∧ shown = some .disconnected) ∨
          (¬ LossAfterCallbacks after ∧ shown = some .connected)) := by
  intro run up shown
  have hfresh := (start_eq_ok_iff.1 hs).2
  have hstart := following_start hs
  have hdown : c.isConnected = false := by
    rw [hfresh]
    rfl
  have hwatch : c.handlers.WatchesLink := by
    rw [hfresh]
    exact hh
  have hempty : c.session.mailbox.Holds (latest []) := by
    rw [hfresh]
    exact Mailbox.holds_empty
  have hup : up = linkAfter false (c.timeline ops) := by
    have hlast := congrArg isConnected (c.performAll_append ops [.act .runCallbacks])
    have hlink := isConnected_performAll ⟨hstart.orderly, hstart.synced⟩ hops
    rw [hdown] at hlink
    exact hlast.trans hlink
  have hshown : shown = ((sight [] none).after (c.timeline ops)).shown :=
    shown_performAll hstart.opened hwatch hempty hops hupdates
  refine ⟨c.log_actions run, ?_, ?_, ?_⟩
  · rw [hup, linkAfter_iff]
    simp
  · intro hconnected
    rw [hup] at hconnected
    exact hshown.trans (shown_of_linkAfter _ hconnected)
  · intro _ before after htimeline hafter
    rw [hshown, htimeline]
    exact Sight.shown_after_last_up _ before hafter

/-- A connection that is shown, and then its loss. -/
theorem callbacks_show_lost_link :
    let now : Instant := .zero
    let config := (Config.ofApplicationId "1").withDrive .manual
    let handlers : Handlers Event := { ready := some .connected, disconnected := some .disconnected }
    let ops : List (Op Script Event) := [.act (.updateConnection now), .act .runCallbacks,
      .act (.world fun script => script.addInbound [.error .pipeClosed]),
      .act (.updateConnection now)]
    ∃ c, start (.ofTransport ({} : Script)) config handlers 1 now = .ok c ∧
      handlers.WatchesLink ∧ .shutdown ∉ ops ∧
      (∀ next, .act (.updateHandlers next) ∈ ops → next.WatchesLink) ∧
      c.timeline ops = [.up, .callbacks, .down] ∧
      lastShown (c.log (ops ++ [.act .runCallbacks])) = some .disconnected := by
  intro now config handlers ops
  let c := fresh (Recorded.ofTransport ({} : Script)) config handlers 1 now
  have hvalid : config.validate = none := by decide +kernel
  have hs : start (Recorded.ofTransport ({} : Script)) config handlers 1 now = .ok c :=
    start_eq_ok_iff.2 ⟨hvalid, rfl⟩
  have hh : handlers.WatchesLink := ⟨rfl, rfl⟩
  have hops : .shutdown ∉ ops := by simp [ops]
  have hupdates : ∀ next, .act (.updateHandlers next) ∈ ops → next.WatchesLink := by simp [ops]
  have htimeline : c.timeline ops = [.up, .callbacks, .down] := by decide +kernel
  have hdown : (c.performAll (ops ++ [.act .runCallbacks])).2.isConnected = false := by
    decide +kernel
  obtain ⟨-, -, -, hlost⟩ := callbacks_show_link ({} : Script) config 1 now hs hh hops hupdates
  have hloss : LossAfterCallbacks [.callbacks, .down] := ⟨[], [.down], rfl, by decide⟩
  rcases hlost hdown [] [.callbacks, .down] htimeline (by decide) with ⟨-, hshown⟩ | ⟨hnone, -⟩
  · exact ⟨c, hs, hh, hops, hupdates, htimeline, hshown⟩
  · exact absurd hloss hnone

/-- A connection that is lost before the callbacks are run: the loss is shown
first and the connection last. -/
theorem callbacks_show_lost_link_ready :
    let now : Instant := .zero
    let config := (((Config.ofApplicationId "1").withDrive .manual).withReconnectDelays .zero
      .zero).withMaxMessageSize 256
    let handlers : Handlers Event := { ready := some .connected, disconnected := some .disconnected }
    let ops : List (Op Script Event) := [.act (.updateConnection now),
      .act (.world fun script => script.addInbound [.error .pipeClosed]),
      .act (.updateConnection now)]
    let run := ops ++ [.act .runCallbacks]
    ∃ c, start (.ofTransport ({} : Script)) config handlers 1 now = .ok c ∧
      c.timeline ops = [.up, .down] ∧ (c.performAll run).2.isConnected = false ∧
      (c.performAll run).1 = [.disconnected 1 "Pipe closed", .connected] ∧
      lastShown (c.log run) ≠ some .disconnected := by
  intro now config handlers ops run
  have hvalid : config.validate = none := by decide +kernel
  exact ⟨fresh (Recorded.ofTransport ({} : Script)) config handlers 1 now,
    start_eq_ok_iff.2 ⟨hvalid, rfl⟩, by decide +kernel, by decide +kernel, by decide +kernel,
    by decide +kernel⟩

end Client

end PresenceLink
