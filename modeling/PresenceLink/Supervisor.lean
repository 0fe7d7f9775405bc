import PresenceLink.Backoff
import PresenceLink.Inbound
import PresenceLink.Instant
import PresenceLink.Session
import PresenceLink.Transport

/-!
# Keeping the link up

A supervisor owns a transport and drives it by ticks. A tick opens the
transport when an attempt is due; on an open one it reads all there is and then
writes all that is queued, and gives the link up at the first failure.

What a tick publishes is a list of events, which only then go to the mailbox;
no decision depends on the mailbox.

* `mailbox_tick`: the mailbox after a tick;
* `flush_eq`: writing what is queued, one message at a time.
-/

namespace PresenceLink

inductive LinkState where
  | disconnected
  /-- An attempt to open the transport is pending. -/
  | connecting
  | connected
  deriving DecidableEq, Repr

structure Supervisor (τ : Type) where
  transport : τ
  session : Session
  backoff : Backoff
  state : LinkState
  /-- No attempt to open is made before this time. -/
  nextAttempt : Instant

/-- A supervisor behind a step, the events it published and the requests it
queued, in order. -/
structure Progress (τ : Type) where
  supervisor : Supervisor τ
  events : List Event := []
  queued : List Command := []

def InboundEvent.toEvent : InboundEvent → Event
  | error code message => .errored code message
  | presenceRequested => .presenceRequested
  | joinGame secret => .joinGame secret
  | spectateGame secret => .spectateGame secret

/-- The events in the payloads that carry one. -/
def eventsOf (payloads : List Bytes) : List Event :=
  payloads.filterMap fun payload => (InboundMessage.eventOf? payload).map InboundEvent.toEvent

namespace Supervisor

variable {τ : Type}

/-- A hundred years, for delays that the clock cannot add. -/
def farFuture : Duration := .ofMillis (100 * 365 * 24 * 60 * 60 * 1000)

def ofTransport (transport : τ) (session : Session) (backoff : Backoff) (now : Instant) :
    Supervisor τ :=
  { transport, session, backoff, state := .disconnected, nextAttempt := now }

/-- When an attempt is due that waits for `delay`. -/
def due (now : Instant) (delay : Duration) : Instant :=
  match now.add? delay with
  | some t => t
  | none => (now.add? farFuture).getD now

/-- Put off the next attempt by the next delay. -/
def schedule (s : Supervisor τ) (now : Instant) : Supervisor τ :=
  { s with nextAttempt := due now s.backoff.next.1, backoff := s.backoff.next.2 }

variable [Transport τ]

/-- The link is up: start the delays over and announce the handled kinds. -/
def enterConnected (s : Supervisor τ) : Progress τ :=
  let (queued, session) := (s.session.setConnected true).announce
  { supervisor := { s with session, backoff := s.backoff.reset, state := .connected },
    events := [.connected], queued }

/-- The link is lost: close the transport and put off the next attempt. -/
def enterDisconnected (s : Supervisor τ) (now : Instant) (e : TransportError) : Progress τ :=
  { supervisor :=
      { s with transport := Transport.close s.transport,
               session := s.session.setConnected false, state := .disconnected }.schedule now,
    events := [.disconnected e.code e.message] }

/-- Try to open. The attempt is put off first, so that one that fails is not
repeated at once; only a failure of a pending attempt counts as a loss. -/
def attempt (s : Supervisor τ) (now : Instant) : Progress τ :=
  let s := s.schedule now
  let (result, transport) := Transport.connect s.transport
  let s := { s with transport }
  match result with
  | .ok .connected => s.enterConnected
  | .ok .pending => { supervisor := { s with state := .connecting } }
  | .error e =>
    match s.state with
    | .connecting => s.enterDisconnected now e
    | _ => { supervisor := s }

/-- Write queued messages until none is left or one fails; that one is lost. -/
def flush (s : Supervisor τ) : Option TransportError × Supervisor τ :=
  match _ : s.session.drain with
  | (none, session) => (none, { s with session })
  | (some message, session) =>
    match Transport.write s.transport message with
    | (.ok _, transport) => flush { s with session, transport }
    | (.error e, transport) => (some e, { s with session, transport })
termination_by s.session.queue.pending
decreasing_by exact Session.pending_drain (by assumption)

/-- A tick on a link that is up. -/
def service (s : Supervisor τ) (now : Instant) : Progress τ :=
  if Transport.isOpen s.transport then
    let inflow := Transport.readAll s.transport
    let s := { s with transport := inflow.transport }
    let received := eventsOf inflow.payloads
    let outcome : Progress τ :=
      match inflow.failure with
      | some e => s.enterDisconnected now e
      | none =>
        match s.flush with
        | (none, s) => { supervisor := s }
        | (some e, s) => s.enterDisconnected now e
    { outcome with events := received ++ outcome.events }
  else s.enterDisconnected now .pipeClosed

/-- One step at a time, before its events are stored. -/
def advance (s : Supervisor τ) (now : Instant) : Progress τ :=
  match s.state with
  | .connected => s.service now
  | _ => if s.nextAttempt.le now then s.attempt now else { supervisor := s }

/-- One step at a time. -/
def tick (s : Supervisor τ) (now : Instant) : Supervisor τ :=
  let progress := s.advance now
  { progress.supervisor with
    session := progress.supervisor.session.publishAll progress.events }

/-- Close the transport without a word. -/
def close (s : Supervisor τ) : Supervisor τ :=
  { s with transport := Transport.close s.transport,
           session := s.session.setConnected false, state := .disconnected }

/-- Let the session do something of its own. -/
def withSession {α : Type} (s : Supervisor τ) (f : Session → α × Session) : α × Supervisor τ :=
  let (result, session) := f s.session
  (result, { s with session })

theorem mailbox_tick (s : Supervisor τ) (now : Instant) :
    (s.tick now).session.mailbox =
      (s.advance now).supervisor.session.mailbox.publishAll (s.advance now).events := rfl

theorem flush_eq (s : Supervisor τ) :
    s.flush = match s.session.drain with
      | (none, session) => (none, { s with session })
      | (some message, session) =>
        match Transport.write s.transport message with
        | (.ok _, transport) => flush { s with session, transport }
        | (.error e, transport) => (some e, { s with session, transport }) := by
  rw [flush]
  split <;> rename_i h <;> simp only [h]

end Supervisor

end PresenceLink
