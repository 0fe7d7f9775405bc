import PresenceLink.Proofs.Client.Callbacks

/-!
# Nothing happens after a shutdown

A client that is shut down has a closed session, no handlers and no engine. Each
of its operations, and each operation of a handle on its session, is stopped by
one of these: requests by the closed session, callbacks by the empty registry,
ticks and further shutdowns by the stopped engine.

* `Shut`: what holds of a client that is shut down;
* `shut_shutdown`: the first shutdown closes the transport;
* `shut_use`: whatever is done later does nothing;
* `open_useAll`, `shut_of_shutdown`: a client is shut down by a shutdown only;
* `shutdown_is_final`: the same of any later operations.
-/

namespace PresenceLink

/-- Without handlers nothing is done about any event. -/
theorem Handlers.run_empty {α : Type} (m : Mailbox) : ((empty : Handlers α).run m).1 = [] := by
  have hcall : ∀ d, (empty : Handlers α).call d = none := by
    intro d
    cases d <;> rfl
  have hkinds : ∀ (kinds : List EventKind) (m : Mailbox),
      ((empty : Handlers α).runKinds kinds m).1 = [] := by
    intro kinds
    induction kinds with
    | nil => exact fun _ => rfl
    | cons k kinds ih =>
      intro m
      change ((m.take k).1.bind (empty : Handlers α).call).toList ++
        ((empty : Handlers α).runKinds kinds (m.take k).2).1 = []
      rw [ih, List.append_nil]
      cases (m.take k).1 with
      | none => rfl
      | some d => exact congrArg Option.toList (hcall d)
  exact hkinds dispatchOrder m

/-- The requests that a client and the handles on its session can make. -/
inductive Request where
  | updatePresence (p : Presence)
  | clearPresence
  | register (k : Subscription)

/-- Make a request; the flag says whether it is granted. -/
def Session.make (s : Session) : Request → Bool × Session
  | .updatePresence p =>
    let (queued, s) := s.setActivity (some p)
    (queued.isSome, s)
  | .clearPresence =>
    let (queued, s) := s.setActivity none
    (queued.isSome, s)
  | .register k => s.register k

theorem Session.make_of_closed {s : Session} (h : s.closed = true) (request : Request) :
    s.make request = (false, s) := by
  cases request with
  | updatePresence p => rw [make, setActivity, submit_of_closed h]; rfl
  | clearPresence => rw [make, setActivity, submit_of_closed h]; rfl
  | register k => rw [make, Session.register, if_pos h]

namespace Client

variable {τ α : Type} [Transport τ]

/-- An operation of the client, or a request through a handle. A client that is
dropped is shut down, and its handles stay. -/
inductive Use (τ α : Type) where
  | client (op : Op τ α)
  | handle (request : Request)

/-- The actions of the handlers that are called, and the client behind. -/
def use (c : Client (Recorded τ) α) : Use τ α → List α × Client (Recorded τ) α
  | .client op => c.perform op
  | .handle request => ([], (c.withSession fun s => s.make request).2)

def useAll (c : Client (Recorded τ) α) : List (Use τ α) → List α × Client (Recorded τ) α
  | [] => ([], c)
  | u :: uses =>
    let (actions, c) := c.use u
    let (more, c) := c.useAll uses
    (actions ++ more, c)

/-- The operation of the client that does the same. -/
def Use.op : Use τ α → Op τ α
  | .client op => op
  | .handle (.updatePresence p) => .act (.updatePresence p)
  | .handle .clearPresence => .act .clearPresence
  | .handle (.register k) => .register k

omit [Transport τ] in
theorem Use.op_eq_shutdown_iff {u : Use τ α} : u.op = .shutdown ↔ u = .client .shutdown := by
  cases u with
  | client op => simp [Use.op]
  | handle request => cases request <;> simp [Use.op]

theorem use_eq_perform (c : Client (Recorded τ) α) (u : Use τ α) :
    (c.use u).2 = (c.perform u.op).2 := by
  cases u with
  | client op => rfl
  | handle request => cases request <;> rfl

theorem useAll_eq_performAll (c : Client (Recorded τ) α) (uses : List (Use τ α)) :
    (c.useAll uses).2 = (c.performAll (uses.map Use.op)).2 := by
  induction uses generalizing c with
  | nil => rfl
  | cons u uses ih =>
    change ((c.use u).2.useAll uses).2 = ((c.perform u.op).2.performAll (uses.map Use.op)).2
    rw [ih, use_eq_perform]

theorem useAll_append (c : Client (Recorded τ) α) (uses more : List (Use τ α)) :
    (c.useAll (uses ++ more)).2 = ((c.useAll uses).2.useAll more).2 := by
  induction uses generalizing c with
  | nil => rfl
  | cons u uses ih => exact ih (c.use u).2

/-- What holds of a client that is shut down. -/
structure Shut (c : Client (Recorded τ) α) : Prop where
  closed : c.session.closed = true
  down : c.isConnected = false
  unsubscribed : c.session.subscriptions = .empty
  handlers : c.handlers = .empty
  engine : c.engine = .stopped

theorem shut_shutdown {c : Client (Recorded τ) α} (h : c.engine ≠ .stopped) :
    c.shutdown.Shut ∧ c.shutdown.calls = c.calls ++ [.close] := by
  rw [shutdown_of_running h]
  exact ⟨⟨rfl, rfl, rfl, rfl, rfl⟩, rfl⟩

namespace Shut

variable {c : Client (Recorded τ) α}

omit [Transport τ] in
/-- A request changes nothing. -/
theorem make (h : c.Shut) (request : Request) :
    c.withSession (fun s => s.make request) = (false, c) := by
  change ((c.session.make request).1, { c with
    supervisor := { c.supervisor with session := (c.session.make request).2 } }) = (false, c)
  rw [Session.make_of_closed h.closed]
  rfl

theorem perform (h : c.Shut) (op : Op τ α) :
    (c.perform op).1 = [] ∧ (c.perform op).2.Shut ∧ (c.perform op).2.calls = c.calls := by
  have hsame : ∀ c' : Client (Recorded τ) α, c' = c → c'.Shut ∧ c'.calls = c.calls := by
    rintro c' rfl
    exact ⟨h, rfl⟩
  cases op with
  | act a =>
    cases a with
    | updateHandlers handlers => exact ⟨rfl, hsame _ (updateHandlers_of_closed h.closed handlers)⟩
    | updateConnection now => exact ⟨rfl, hsame _ (updateConnection_of_stopped h.engine now)⟩
    | updatePresence p => exact ⟨rfl, hsame _ (congrArg Prod.snd (h.make (.updatePresence p)))⟩
    | clearPresence => exact ⟨rfl, hsame _ (congrArg Prod.snd (h.make .clearPresence))⟩
    | runCallbacks =>
      refine ⟨?_, ⟨h.closed, h.down, h.unsubscribed, h.handlers, h.engine⟩, rfl⟩
      change (c.handlers.run c.session.mailbox).1 = []
      rw [h.handlers]
      exact Handlers.run_empty _
    | world change => exact ⟨rfl, ⟨h.closed, h.down, h.unsubscribed, h.handlers, h.engine⟩, rfl⟩
  | register k => exact ⟨rfl, hsame _ (congrArg Prod.snd (h.make (.register k)))⟩
  | shutdown => exact ⟨rfl, hsame _ (shutdown_of_stopped h.engine)⟩

end Shut

theorem shut_use {c : Client (Recorded τ) α} (h : c.Shut) (u : Use τ α) :
    (c.use u).1 = [] ∧ (c.use u).2.Shut ∧ (c.use u).2.calls = c.calls := by
  cases u with
  | client op => exact h.perform op
  | handle request =>
    have hsame : (c.use (.handle request)).2 = c := congrArg Prod.snd (h.make request)
    rw [hsame]
    exact ⟨rfl, h, rfl⟩

theorem shut_useAll {c : Client (Recorded τ) α} (h : c.Shut) (uses : List (Use τ α)) :
    (c.useAll uses).1 = [] ∧ (c.useAll uses).2.Shut ∧ (c.useAll uses).2.calls = c.calls := by
  induction uses generalizing c with
  | nil => exact ⟨rfl, h, rfl⟩
  | cons u uses ih =>
    obtain ⟨hactions, hshut, hcalls⟩ := shut_use h u
    obtain ⟨hmore, hshut', hcalls'⟩ := ih hshut
    refine ⟨?_, hshut', hcalls'.trans hcalls⟩
    change (c.use u).1 ++ ((c.use u).2.useAll uses).1 = []
    rw [hactions, hmore]
    rfl

/-- Only a shutdown closes the session and stops the engine. -/
theorem open_useAll (c : Client (Recorded τ) α) {uses : List (Use τ α)}
    (h : .client .shutdown ∉ uses) :
    (c.useAll uses).2.session.closed = c.session.closed ∧
      (c.useAll uses).2.engine = c.engine := by
  induction uses generalizing c with
  | nil => exact ⟨rfl, rfl⟩
  | cons u uses ih =>
    obtain ⟨hu, huses⟩ := List.ne_and_not_mem_of_not_mem_cons h
    have hop : u.op ≠ .shutdown := fun hop => hu (Use.op_eq_shutdown_iff.1 hop).symm
    have hfirst := open_perform c hop
    rw [← use_eq_perform] at hfirst
    obtain ⟨hclosed, hengine⟩ := ih (c.use u).2 huses
    exact ⟨hclosed.trans hfirst.1, hengine.trans hfirst.2⟩

theorem engine_useAll (c : Client (Recorded τ) α) {uses : List (Use τ α)}
    (h : .client .shutdown ∉ uses) : (c.useAll uses).2.engine = c.engine := (open_useAll c h).2

/-- A client that was shut down at any time is shut down. -/
theorem shut_of_shutdown {c : Client (Recorded τ) α} (h : c.engine ≠ .stopped)
    {uses : List (Use τ α)} (hm : .client .shutdown ∈ uses) : (c.useAll uses).2.Shut := by
  obtain ⟨before, later, rfl, hbefore⟩ := List.eq_append_cons_of_mem hm
  rw [useAll_append]
  have hrunning : (c.useAll before).2.engine ≠ .stopped := by
    rw [engine_useAll c hbefore]
    exact h
  exact (shut_useAll (shut_shutdown hrunning).1 later).2.1

/-- **A shutdown is final.** Whatever was done before, the first shutdown closes
the transport. Whatever is done later, with the client or with a handle, it
calls no handler and makes no call on the transport; the link stays down and no
kind is handled. Every request is refused, of the client and of a handle. -/
theorem shutdown_is_final (t : τ) (config : Config) (handlers : Handlers α) (pid : UInt32)
    (now : Instant) {c : Client (Recorded τ) α}
    (hs : start (.ofTransport t) config handlers pid now = .ok c) (before later : List (Use τ α))
    (hbefore : .client .shutdown ∉ before) :
    let r := (c.useAll before).2
    let u := r.shutdown.useAll later
    u.1 = [] ∧ u.2.calls = r.calls ++ [.close] ∧ u.2.isConnected = false ∧
      u.2.session.subscriptions = .empty ∧
      (∀ p, (u.2.updatePresence p).1 = false) ∧ u.2.clearPresence.1 = false ∧
      (∀ k, (u.2.register k).1 = false) ∧ ∀ request, (u.2.session.make request).1 = false := by
  intro r u
  obtain ⟨-, rfl⟩ := start_eq_ok_iff.1 hs
  have hrunning : r.engine ≠ .stopped := by
    rw [engine_useAll _ hbefore]
    exact engine_fresh _ config handlers pid now
  obtain ⟨hshut, hclose⟩ := shut_shutdown hrunning
  obtain ⟨hactions, hstays, hcalls⟩ := shut_useAll hshut later
  have hrefused : ∀ request, (u.2.session.make request).1 = false := fun request =>
    congrArg Prod.fst (Session.make_of_closed hstays.closed request)
  exact ⟨hactions, hcalls.trans hclose, hstays.down, hstays.unsubscribed,
    fun p => hrefused (.updatePresence p), hrefused .clearPresence, fun k => hrefused (.register k),
    hrefused⟩

/-- A link that is up, a message that waits and an event that nobody has seen:
all that is left of them after a shutdown is that the transport is closed. -/
theorem shutdown_of_busy_client :
    let now : Instant := .zero
    let config := (Config.ofApplicationId "1").withDrive .manual
    let before : List (Use Script Unit) :=
      [.client (.act (.updateConnection now)), .handle .clearPresence]
    let later : List (Use Script Unit) := [.handle (.register .joinGame), .client (.act .runCallbacks),
      .client (.act (.updateConnection now)), .client .shutdown]
    ∃ c, start (.ofTransport ({} : Script)) config { ready := some () } 1 now = .ok c ∧
      .client .shutdown ∉ before ∧
      (c.useAll before).2.isConnected = true ∧
      ((c.useAll before).2.shutdown.useAll later).1 = [] ∧
      ((c.useAll before).2.shutdown.useAll later).2.calls =
        (c.useAll before).2.calls ++ [.close] := by
  intro now config before later
  let handlers : Handlers Unit := { ready := some () }
  let c := fresh (Recorded.ofTransport ({} : Script)) config handlers 1 now
  have hvalid : config.validate = none := by decide +kernel
  have hs : start (Recorded.ofTransport ({} : Script)) config handlers 1 now = .ok c :=
    start_eq_ok_iff.2 ⟨hvalid, rfl⟩
  have hbefore : .client .shutdown ∉ before := by simp [before]
  obtain ⟨hactions, hcalls, -⟩ :=
    shutdown_is_final ({} : Script) config handlers 1 now hs before later hbefore
  exact ⟨c, hs, hbefore, by decide +kernel, hactions, hcalls⟩

end Client

end PresenceLink
