import Mathlib.Data.List.Nodup
import PresenceLink.Proofs.Client.Subscriptions
import PresenceLink.Proofs.Mailbox.Cells
import PresenceLink.Proofs.Supervisor.Protocol

/-!
# Which handlers are called

Handlers are called when the embedder runs the callbacks, and at no other time.
Each kind of event is looked at once, in a fixed order: its handler, if one is
installed, is called with the latest event of that kind since the callbacks
were last run. Handlers that have been replaced and events that found no
handler are gone.

* `Handlers.run_of_holds`: what running the registry does with the events that
  a mailbox holds;
* `mailbox_perform`, `handlers_performAll`: what every other operation does to
  the mailbox and to the handlers;
* `callbacks_run_latest_events`: the calls at any point of a run.
-/

namespace PresenceLink

/-- The latest event of a kind. -/
def latest (events : List Event) (k : EventKind) : Option Event :=
  (events.filter fun e => e.kind = k).getLast?

theorem latest_append_singleton (events : List Event) (e : Event) :
    latest (events ++ [e]) = Function.update (latest events) e.kind (some e) := by
  funext k
  unfold latest
  rw [List.filter_append]
  rcases eq_or_ne k e.kind with rfl | hk
  · simp
  · simp [Function.update_of_ne hk, hk.symm]

theorem Mailbox.Holds.publishAll {m : Mailbox} {events : List Event} (h : m.Holds (latest events))
    (more : List Event) : (m.publishAll more).Holds (latest (events ++ more)) := by
  induction more generalizing m events with
  | nil => rwa [List.append_nil]
  | cons e more ih =>
    have hstep := h.publish e
    rw [← latest_append_singleton] at hstep
    rw [List.append_cons]
    exact ih hstep

namespace Handlers

variable {α : Type}

/-- What the handlers do about an event. -/
def answer (h : Handlers α) : Event → Option α
  | .connected => h.ready
  | .disconnected code message => h.disconnected.map fun f => f code message
  | .errored code message => h.errored.map fun f => f code message
  | .presenceRequested => h.presenceRequested
  | .joinGame secret => h.joinGame.map fun f => f secret
  | .spectateGame secret => h.spectateGame.map fun f => f secret

theorem call_eq_answer (h : Handlers α) (d : Delivery) : h.call d = h.answer d.event := by
  cases d <;> rfl

/-- What the handler of a kind does about the event in its cell. -/
def respond (h : Handlers α) (cells : Mailbox.Cells) (k : EventKind) : Option α :=
  (cells k).bind fun e => h.answer e.clip

theorem runKinds_of_holds (h : Handlers α) {kinds : List EventKind} (hn : kinds.Nodup)
    {m : Mailbox} {cells : Mailbox.Cells} (hm : m.Holds cells) :
    (h.runKinds kinds m).1 = kinds.filterMap (h.respond cells) ∧
      (h.runKinds kinds m).2.Holds fun k => if k ∈ kinds then none else cells k := by
  induction kinds generalizing m cells with
  | nil => exact ⟨rfl, hm⟩
  | cons k kinds ih =>
    obtain ⟨hk, hkinds⟩ := List.nodup_cons.1 hn
    obtain ⟨hactions, hrest⟩ := ih hkinds (hm.take k)
    have hcall : (m.take k).1.bind h.call = h.respond cells k := by
      have hbind := congrArg (Option.bind · h.answer) (hm k)
      simp only [Option.bind_map] at hbind
      rw [respond, ← Function.comp_def, ← hbind]
      congr 1
      funext d
      exact h.call_eq_answer d
    have hsame : kinds.filterMap (h.respond (Function.update cells k none)) =
        kinds.filterMap (h.respond cells) := by
      apply List.filterMap_congr
      intro j hj
      have hne : j ≠ k := fun e => hk (e ▸ hj)
      rw [respond, Function.update_of_ne hne, respond]
    constructor
    · simp only [runKinds, hcall, hactions, hsame]
      cases hr : h.respond cells k <;> simp [hr]
    · intro j
      rw [runKinds]
      refine (hrest j).trans ?_
      rcases eq_or_ne j k with rfl | hne
      · simp
      · simp [hne]

theorem nodup_dispatchOrder : dispatchOrder.Nodup := by decide

theorem mem_dispatchOrder (k : EventKind) : k ∈ dispatchOrder := by cases k <;> decide

/-- Running the registry calls the handlers of what the mailbox holds, in order,
and empties the mailbox. -/
theorem run_of_holds (h : Handlers α) {m : Mailbox} {cells : Mailbox.Cells} (hm : m.Holds cells) :
    (h.run m).1 = dispatchOrder.filterMap (h.respond cells) ∧ (h.run m).2.Holds (latest []) := by
  obtain ⟨hactions, hrest⟩ := h.runKinds_of_holds nodup_dispatchOrder hm
  refine ⟨hactions, ?_⟩
  intro k
  refine (hrest k).trans ?_
  dsimp only
  rw [if_pos (mem_dispatchOrder k)]
  rfl

end Handlers

/-! ## What a tick leaves alone -/

namespace Session

/-- What neither requests nor the link change: only what a tick publishes goes
to the mailbox. -/
def rest (s : Session) : Mailbox × Bool := (s.mailbox, s.closed)

theorem rest_submit (s : Session) (build : UInt64 → Command) : (s.submit build).2.rest = s.rest := by
  obtain ⟨hmailbox, -, -, -, hclosed⟩ := s.submit_frame build
  rw [rest, hmailbox, hclosed, rest]

theorem rest_announce (s : Session) : s.announce.2.rest = s.rest :=
  frame_submitEach rest (fun s _ => s.rest_submit _) s _

theorem rest_resubscribe (s : Session) (next : Subscriptions) :
    (s.resubscribe next).2.rest = s.rest := by
  unfold resubscribe
  dsimp only
  split
  · exact (frame_submitEach rest (fun s _ => s.rest_submit _) _ _).trans
      (frame_submitEach rest (fun s _ => s.rest_submit _) _ _)
  · rfl

theorem rest_register (s : Session) (k : Subscription) : (s.register k).2.rest = s.rest := by
  unfold register
  split
  · rfl
  · split
    · rfl
    · exact s.rest_submit _

theorem rest_drain {s s' : Session} {message : Option Bytes} (hd : s.drain = (message, s')) :
    s'.rest = s.rest := by
  rw [(drain_frame hd).2]
  rfl

end Session

namespace Supervisor

variable {τ : Type} [Transport τ]

theorem rest_advance (s : Supervisor τ) (now : Instant) :
    (s.advance now).supervisor.session.rest = s.session.rest :=
  session_advance (P := fun session => session.rest = s.session.rest)
    (fun h => (Session.rest_announce _).trans h) (fun h => h)
    (fun h hd => (Session.rest_drain hd).trans h) rfl now

end Supervisor

/-! ## Runs -/

namespace Client

variable {τ α : Type} [Transport τ]

/-- All that an embedder does with a client that it drives itself. -/
inductive Op (τ α : Type) where
  | act (a : Act τ α)
  | register (k : Subscription)
  | shutdown

/-- The actions of the handlers that an operation calls, and the client behind
it. -/
def perform (c : Client (Recorded τ) α) : Op τ α → List α × Client (Recorded τ) α
  | .act .runCallbacks => c.runCallbacks
  | .act a => ([], c.act a)
  | .register k => ([], (c.register k).2)
  | .shutdown => ([], c.shutdown)

/-- All actions of a run, in order. -/
def performAll (c : Client (Recorded τ) α) : List (Op τ α) → List α × Client (Recorded τ) α
  | [] => ([], c)
  | op :: ops =>
    let (actions, c) := c.perform op
    let (more, c) := c.performAll ops
    (actions ++ more, c)

/-- The events that an operation publishes. -/
def published (c : Client (Recorded τ) α) : Op τ α → List Event
  | .act (.updateConnection now) =>
    match c.engine with
    | .manual => (c.supervisor.advance now).events
    | _ => []
  | _ => []

/-- The events since the callbacks were last run, `events` being those before
an operation. -/
def unseenAfter (c : Client (Recorded τ) α) (events : List Event) : Op τ α → List Event
  | .act .runCallbacks => []
  | op => events ++ c.published op

/-- The events of a run since the callbacks were last run. -/
def unseen (c : Client (Recorded τ) α) (events : List Event) : List (Op τ α) → List Event
  | [] => events
  | op :: ops => (c.perform op).2.unseen (c.unseenAfter events op) ops

/-- The handlers after some operations: those installed last, and none once the
client is shut down. -/
def installed (handlers : Handlers α) : List (Op τ α) → Handlers α
  | [] => handlers
  | .act (.updateHandlers next) :: ops => installed next ops
  | .shutdown :: _ => .empty
  | _ :: ops => installed handlers ops

theorem actions_perform (c : Client (Recorded τ) α) {op : Op τ α} (hop : op ≠ .act .runCallbacks) :
    (c.perform op).1 = [] := by
  cases op with
  | act a =>
    cases a with
    | runCallbacks => exact absurd rfl hop
    | _ => rfl
  | register k => rfl
  | shutdown => rfl

/-! ### The mailbox -/

omit [Transport τ] in
theorem rest_updateHandlers (c : Client τ α) (handlers : Handlers α) :
    (c.updateHandlers handlers).session.rest = c.session.rest := by
  unfold updateHandlers
  split
  · rfl
  · exact c.session.rest_resubscribe _

omit [Transport τ] in
theorem rest_setActivity (c : Client τ α) (activity : Option Presence) :
    (c.setActivity activity).2.session.rest = c.session.rest :=
  c.session.rest_submit fun n => .setActivity n c.session.pid activity

/-- Ticks store what they publish; no other operation but running the callbacks
touches the mailbox. -/
theorem mailbox_perform (c : Client (Recorded τ) α) {op : Op τ α} (hop : op ≠ .act .runCallbacks) :
    (c.perform op).2.session.mailbox = c.session.mailbox.publishAll (c.published op) := by
  cases op with
  | act a =>
    cases a with
    | updateHandlers handlers => exact congrArg Prod.fst (c.rest_updateHandlers handlers)
    | updateConnection now =>
      change (c.updateConnection now).session.mailbox = _
      unfold updateConnection published
      cases c.engine with
      | manual =>
        have hrest := congrArg Prod.fst (c.supervisor.rest_advance now)
        exact congrArg (Mailbox.publishAll · (c.supervisor.advance now).events) hrest
      | thread => rfl
      | stopped => rfl
    | updatePresence p => exact congrArg Prod.fst (c.rest_setActivity (some p))
    | clearPresence => exact congrArg Prod.fst (c.rest_setActivity none)
    | runCallbacks => exact absurd rfl hop
    | world change => rfl
  | register k => exact congrArg Prod.fst (c.session.rest_register k)
  | shutdown =>
    change c.shutdown.session.mailbox = _
    unfold shutdown
    split <;> rfl

theorem unseenAfter_of_ne (c : Client (Recorded τ) α) (events : List Event) {op : Op τ α}
    (hop : op ≠ .act .runCallbacks) : c.unseenAfter events op = events ++ c.published op := by
  unfold unseenAfter
  split
  · exact absurd rfl hop
  · rfl

theorem holds_perform {c : Client (Recorded τ) α} {events : List Event}
    (h : c.session.mailbox.Holds (latest events)) (op : Op τ α) :
    (c.perform op).2.session.mailbox.Holds (latest (c.unseenAfter events op)) := by
  by_cases hop : op = .act .runCallbacks
  · rw [hop]
    exact (c.handlers.run_of_holds h).2
  · rw [mailbox_perform c hop, c.unseenAfter_of_ne events hop]
    exact h.publishAll _

theorem holds_performAll {c : Client (Recorded τ) α} {events : List Event}
    (h : c.session.mailbox.Holds (latest events)) (ops : List (Op τ α)) :
    (c.performAll ops).2.session.mailbox.Holds (latest (c.unseen events ops)) := by
  induction ops generalizing c events with
  | nil => exact h
  | cons op ops ih => exact ih (holds_perform h op)

/-! ### The handlers -/

/-- Only shutting down closes a client. -/
theorem open_perform (c : Client (Recorded τ) α) {op : Op τ α} (hop : op ≠ .shutdown) :
    (c.perform op).2.session.closed = c.session.closed ∧ (c.perform op).2.engine = c.engine := by
  cases op with
  | act a =>
    cases a with
    | updateHandlers handlers =>
      refine ⟨congrArg Prod.snd (c.rest_updateHandlers handlers), ?_⟩
      change (c.updateHandlers handlers).engine = c.engine
      unfold updateHandlers
      split <;> rfl
    | updateConnection now =>
      change (c.updateConnection now).session.closed = _ ∧ (c.updateConnection now).engine = _
      unfold updateConnection
      split
      · exact ⟨congrArg Prod.snd (c.supervisor.rest_advance now), rfl⟩
      · exact ⟨rfl, rfl⟩
    | updatePresence p => exact ⟨congrArg Prod.snd (c.rest_setActivity (some p)), rfl⟩
    | clearPresence => exact ⟨congrArg Prod.snd (c.rest_setActivity none), rfl⟩
    | runCallbacks => exact ⟨rfl, rfl⟩
    | world change => exact ⟨rfl, rfl⟩
  | register k => exact ⟨congrArg Prod.snd (c.session.rest_register k), rfl⟩
  | shutdown => exact absurd rfl hop

omit [Transport τ] in
theorem installed_cons (handlers : Handlers α) {op : Op τ α} (hop : op ≠ .shutdown)
    (hupdate : ∀ next, op ≠ .act (.updateHandlers next)) (ops : List (Op τ α)) :
    installed handlers (op :: ops) = installed handlers ops := by
  rw [installed]
  · exact hupdate
  · exact hop

/-- Only replacing the handlers and shutting down change them. -/
theorem handlers_perform (c : Client (Recorded τ) α) {op : Op τ α} (hop : op ≠ .shutdown)
    (hupdate : ∀ next, op ≠ .act (.updateHandlers next)) :
    (c.perform op).2.handlers = c.handlers := by
  cases op with
  | act a =>
    cases a with
    | updateHandlers next => exact absurd rfl (hupdate next)
    | updateConnection now =>
      change (c.updateConnection now).handlers = c.handlers
      unfold updateConnection
      split <;> rfl
    | updatePresence p => rfl
    | clearPresence => rfl
    | runCallbacks => rfl
    | world change => rfl
  | register k => rfl
  | shutdown => exact absurd rfl hop

/-- A client that is shut down keeps the handlers that it has. -/
theorem handlers_performAll_of_stopped {c : Client (Recorded τ) α}
    (hclosed : c.session.closed = true) (hengine : c.engine = .stopped) (ops : List (Op τ α)) :
    (c.performAll ops).2.handlers = c.handlers := by
  induction ops generalizing c with
  | nil => rfl
  | cons op ops ih =>
    by_cases hop : op = .shutdown
    · have hsame : (c.perform op).2 = c := by
        rw [hop]
        exact shutdown_of_stopped hengine
      change ((c.perform op).2.performAll ops).2.handlers = c.handlers
      rw [hsame]
      exact ih hclosed hengine
    · obtain ⟨hc, he⟩ := open_perform c hop
      refine (ih (hc.trans hclosed) (he.trans hengine)).trans ?_
      by_cases hupdate : ∃ next, op = .act (.updateHandlers next)
      · obtain ⟨next, rfl⟩ := hupdate
        exact congrArg handlers (updateHandlers_of_closed hclosed next)
      · exact handlers_perform c hop fun next h => hupdate ⟨next, h⟩

theorem handlers_performAll {c : Client (Recorded τ) α} (hclosed : c.session.closed = false)
    (hengine : c.engine ≠ .stopped) (ops : List (Op τ α)) :
    (c.performAll ops).2.handlers = installed c.handlers ops := by
  induction ops generalizing c with
  | nil => rfl
  | cons op ops ih =>
    by_cases hop : op = .shutdown
    · subst hop
      have hdown : c.shutdown.session.closed = true ∧ c.shutdown.handlers = .empty := by
        rw [shutdown_of_running hengine]
        exact ⟨rfl, rfl⟩
      exact (handlers_performAll_of_stopped hdown.1 (engine_shutdown c) ops).trans hdown.2
    · obtain ⟨hc, he⟩ := open_perform c hop
      have hrest := ih (hc.trans hclosed) (he ▸ hengine)
      refine hrest.trans ?_
      by_cases hupdate : ∃ next, op = .act (.updateHandlers next)
      · obtain ⟨next, rfl⟩ := hupdate
        have hnext := congrArg handlers (updateHandlers_of_open hclosed next)
        exact congrArg (installed · ops) hnext
      · have hkept : ∀ next, op ≠ .act (.updateHandlers next) := fun next h => hupdate ⟨next, h⟩
        rw [handlers_perform c hop hkept, installed_cons _ hop hkept]

omit [Transport τ] in
theorem engine_fresh (t : τ) (config : Config) (handlers : Handlers α) (pid : UInt32)
    (now : Instant) : (fresh t config handlers pid now).engine ≠ .stopped := by
  unfold fresh
  cases config.drive with
  | thread => exact Engine.noConfusion
  | manual => exact Engine.noConfusion

/-- **Running the callbacks calls the installed handlers with the latest events.**
No other operation calls a handler. In the order of the kinds, the handler that
is installed for a kind is called with the latest event of that kind since the
callbacks were last run, with its text cut to the size of a buffer, that is to
the longest beginning that fits into 256 octets. A kind without such an event
or without a handler is passed over. -/
theorem callbacks_run_latest_events (t : τ) (config : Config) (handlers : Handlers α)
    (pid : UInt32) (now : Instant) {c : Client (Recorded τ) α}
    (hs : start (.ofTransport t) config handlers pid now = .ok c) (ops : List (Op τ α)) :
    let r := (c.performAll ops).2
    (∀ op, op ≠ .act .runCallbacks → (r.perform op).1 = []) ∧
      (r.perform (.act .runCallbacks)).1 =
        ([.errored, .disconnected, .connected, .presenceRequested, .joinGame,
          .spectateGame].filterMap fun k =>
            (latest (c.unseen [] ops) k).bind fun e => (installed handlers ops).answer e.clip) ∧
      ∀ text, LongestPrefix 256 text (Utf8.clip payloadCapacity text) := by
  intro r
  obtain ⟨-, rfl⟩ := start_eq_ok_iff.1 hs
  refine ⟨fun op hop => r.actions_perform hop, ?_, Utf8.longestPrefix_clip 256⟩
  have hempty : (fresh (Recorded.ofTransport t) config handlers pid now).session.mailbox.Holds
      (latest []) := Mailbox.holds_empty
  have hholds := holds_performAll hempty ops
  have hhandlers : r.handlers = installed handlers ops :=
    handlers_performAll rfl (engine_fresh _ config handlers pid now) ops
  rw [← hhandlers]
  exact (r.handlers.run_of_holds hholds).1

/-- A link that came up and was lost, and handlers that were replaced: the new
ones are told of the loss, and no one of the connection. -/
theorem callbacks_run_new_handlers :
    let now : Instant := .zero
    let config := (Config.ofApplicationId "1").withDrive .manual
    let ops : List (Op Script Event) := [.act (.updateConnection now),
      .act (.world fun script => script.addInbound [.error .pipeClosed]),
      .act (.updateConnection now), .act (.updateHandlers { disconnected := some .disconnected })]
    ∃ c, start (.ofTransport ({} : Script)) config { ready := some .connected } 1 now = .ok c ∧
      c.unseen [] ops = [.connected, .disconnected 1 "Pipe closed"] ∧
      ((c.performAll ops).2.perform (.act .runCallbacks)).1 = [.disconnected 1 "Pipe closed"] := by
  intro now config ops
  let handlers : Handlers Event := { ready := some .connected }
  let c := fresh (Recorded.ofTransport ({} : Script)) config handlers 1 now
  have hvalid : config.validate = none := by decide +kernel
  have hs : start (Recorded.ofTransport ({} : Script)) config handlers 1 now = .ok c :=
    start_eq_ok_iff.2 ⟨hvalid, rfl⟩
  have hunseen : c.unseen [] ops = [.connected, .disconnected 1 "Pipe closed"] := by decide +kernel
  have hcalls := (callbacks_run_latest_events ({} : Script) config handlers 1 now hs ops).2.1
  rw [hunseen] at hcalls
  exact ⟨c, hs, hunseen, hcalls.trans (by decide +kernel)⟩

end Client

end PresenceLink
