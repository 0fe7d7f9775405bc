import PresenceLink.Config
import PresenceLink.Handlers
import PresenceLink.Supervisor

/-!
# The client

A client joins a supervisor with the handlers of the embedder. Events reach the
handlers only when the embedder runs the callbacks. After `shutdown` nothing
happens any more.

* `updateConnection_of_stopped`, `shutdown_of_stopped`,
  `updateHandlers_of_closed`: what a stopped client ignores.
-/

namespace PresenceLink

/-- What drives a client at the moment. -/
inductive Engine where
  | thread
  | manual
  | stopped
  deriving DecidableEq, Repr

def Engine.describe : Engine → String
  | thread => "thread"
  | manual => "manual"
  | stopped => "stopped"

structure Client (τ : Type) (α : Type) where
  supervisor : Supervisor τ
  handlers : Handlers α
  engine : Engine

namespace Client

variable {τ α : Type}

def session (c : Client τ α) : Session := c.supervisor.session

def isConnected (c : Client τ α) : Bool := c.session.connected

/-- Start a client over a transport; `ownPid` is the running process. -/
def start (transport : τ) (config : Config) (handlers : Handlers α) (ownPid : UInt32)
    (now : Instant) : Except ClientError (Client τ α) :=
  match config.validate with
  | some e => .error e
  | none =>
    let session := Session.ofSize config.queueSlots config.slotCapacity
      (config.processId.getD ownPid)
    .ok {
      supervisor := .ofTransport transport (session.setSubscriptions handlers.subscriptions)
        (.ofBounds config.baseDelay config.maxDelay) now
      handlers
      engine := match config.drive with
        | .thread => .thread
        | .manual => .manual }

/-- Let the session do something of its own. -/
def withSession {β : Type} (c : Client τ α) (f : Session → β × Session) : β × Client τ α :=
  let (result, supervisor) := c.supervisor.withSession f
  (result, { c with supervisor })

/-- Show a presence, or none; the flag says whether the request was queued. -/
def setActivity (c : Client τ α) (activity : Option Presence) : Bool × Client τ α :=
  let (queued, c) := c.withSession fun s => s.setActivity activity
  (queued.isSome, c)

def updatePresence (c : Client τ α) (p : Presence) : Bool × Client τ α := c.setActivity (some p)

def clearPresence (c : Client τ α) : Bool × Client τ α := c.setActivity none

/-- Ask for a kind of event, with or without a handler for it. -/
def register (c : Client τ α) (k : Subscription) : Bool × Client τ α :=
  c.withSession fun s => s.register k

/-- Replace the handlers, unless the client is shut down. -/
def updateHandlers (c : Client τ α) (handlers : Handlers α) : Client τ α :=
  if c.session.closed then c
  else
    let (_, c) := c.withSession fun s => s.resubscribe handlers.subscriptions
    { c with handlers }

/-- Hand the waiting events to the handlers; the result is what they do. -/
def runCallbacks (c : Client τ α) : List α × Client τ α :=
  c.withSession fun s =>
    let (actions, mailbox) := c.handlers.run s.mailbox
    (actions, { s with mailbox })

variable [Transport τ]

/-- Tick if the embedder drives the client. -/
def updateConnection (c : Client τ α) (now : Instant) : Client τ α :=
  match c.engine with
  | .manual => { c with supervisor := c.supervisor.tick now }
  | _ => c

/-- One round of the thread, if there is one. -/
def background (c : Client τ α) (now : Instant) : Client τ α :=
  match c.engine with
  | .thread => { c with supervisor := c.supervisor.tick now }
  | _ => c

/-- Drop the handlers, refuse all further requests and close the transport. -/
def shutdown (c : Client τ α) : Client τ α :=
  match c.engine with
  | .stopped => c
  | _ =>
    let session := (c.session.setSubscriptions .empty).close
    { supervisor := { c.supervisor with session }.close, handlers := .empty, engine := .stopped }

omit [Transport τ] in
theorem updateHandlers_of_closed {c : Client τ α} (h : c.session.closed = true)
    (handlers : Handlers α) : c.updateHandlers handlers = c := by
  rw [updateHandlers, if_pos h]

theorem updateConnection_of_not_manual {c : Client τ α} (h : c.engine ≠ .manual) (now : Instant) :
    c.updateConnection now = c := by
  unfold updateConnection
  split
  · exact absurd (by assumption) h
  · rfl

theorem updateConnection_of_stopped {c : Client τ α} (h : c.engine = .stopped) (now : Instant) :
    c.updateConnection now = c :=
  updateConnection_of_not_manual (by simp [h]) now

theorem shutdown_of_stopped {c : Client τ α} (h : c.engine = .stopped) : c.shutdown = c := by
  simp only [shutdown, h]

theorem shutdown_of_running {c : Client τ α} (h : c.engine ≠ .stopped) :
    c.shutdown =
      { supervisor := Supervisor.close
          { c.supervisor with session := (c.session.setSubscriptions .empty).close },
        handlers := .empty, engine := .stopped } := by
  unfold shutdown
  split
  · exact absurd (by assumption) h
  · rfl

theorem engine_shutdown (c : Client τ α) : c.shutdown.engine = .stopped := by
  unfold shutdown
  split
  · assumption
  · rfl

omit [Transport τ] in
def describe (c : Client τ α) : String :=
  "RpcClient \x7b connected: " ++ toString c.isConnected ++ ", driver: \"" ++ c.engine.describe ++
    "\", handlers: " ++ c.handlers.describe ++ " \x7d"

omit [Transport τ] in
/-- What a handle on the client's session shows of it. -/
def describeHandle (c : Client τ α) : String :=
  "PresenceHandle \x7b shared: " ++ c.session.describe ++ " \x7d"

end Client

end PresenceLink
