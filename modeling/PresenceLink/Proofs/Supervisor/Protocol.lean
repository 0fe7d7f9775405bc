import PresenceLink.Proofs.SendQueue.Ready
import PresenceLink.Proofs.Supervisor.Delivery

/-!
# The calls of a tick

A tick drives the transport in one of nine ways, by the state of the link and
by what the transport answers. A link that is down is opened when an attempt is
due, and nothing else is done. On a link that is up all there is to read is
read, then all messages that can be taken are written, and at the first failure
the transport is closed.

* `TickStep`: the nine ways, with the events that each publishes;
* `tickStep_advance`: every tick is one of them;
* `tick_protocol`: the same at any point of a run, and the state of the link by
  the calls that were made.
-/

namespace PresenceLink

/-- The event that reports a loss. -/
def TransportError.toEvent (e : TransportError) : Event := .disconnected e.code e.message

/-- The calls that read some payloads. -/
def reads (payloads : List Bytes) : List Call := payloads.map fun payload => .read (.ok (some payload))

/-- The calls that hand over some messages. -/
def writes (batch : List Handover) : List Call := batch.map fun w => .write w.1 w.2

/-- What a tick does, by the state that it finds: the calls that it makes, the
events that it publishes and the state that it leaves. An attempt may be `due`,
the transport may be open, and some messages are `ready` to be written. -/
inductive TickStep (due isOpen : Bool) (ready : List Bytes) :
    LinkState → List Call → List Event → LinkState → Prop where
  | waits {state : LinkState} (h : state ≠ .connected) (hdue : due = false) :
      TickStep due isOpen ready state [] [] state
  | opens {state : LinkState} (h : state ≠ .connected) (hdue : due = true) :
      TickStep due isOpen ready state [.connect (.ok .connected)] [.connected] .connected
  | pends {state : LinkState} (h : state ≠ .connected) (hdue : due = true) :
      TickStep due isOpen ready state [.connect (.ok .pending)] [] .connecting
  /-- The first call of an attempt fails; nothing is lost yet. -/
  | refused (e : TransportError) (hdue : due = true) :
      TickStep due isOpen ready .disconnected [.connect (.error e)] [] .disconnected
  /-- A pending attempt fails. -/
  | fails (e : TransportError) (hdue : due = true) :
      TickStep due isOpen ready .connecting [.connect (.error e), .close] [e.toEvent] .disconnected
  | gone (ho : isOpen = false) :
      TickStep due isOpen ready .connected [.close] [TransportError.pipeClosed.toEvent] .disconnected
  | unreadable (ho : isOpen = true) (payloads : List Bytes) (e : TransportError) :
      TickStep due isOpen ready .connected (reads payloads ++ [.read (.error e), .close])
        (eventsOf payloads ++ [e.toEvent]) .disconnected
  | serves (ho : isOpen = true) (payloads : List Bytes) {batch : List Handover}
      (hb : Handed batch none) (hq : batch.map Prod.fst = ready) :
      TickStep due isOpen ready .connected (reads payloads ++ .read (.ok none) :: writes batch)
        (eventsOf payloads) .connected
  | unwritable (ho : isOpen = true) (payloads : List Bytes) {batch : List Handover}
      {e : TransportError} (hb : Handed batch (some e)) (hq : batch.map Prod.fst <+: ready) :
      TickStep due isOpen ready .connected
        (reads payloads ++ .read (.ok none) :: (writes batch ++ [.close]))
        (eventsOf payloads ++ [e.toEvent]) .disconnected

namespace TickStep

variable {due isOpen : Bool} {ready : List Bytes} {state state' : LinkState} {calls : List Call}
  {events : List Event}

theorem close_mem_reads (payloads : List Bytes) : Call.close ∉ reads payloads := by
  simp [reads]

theorem close_mem_writes (batch : List Handover) : Call.close ∉ writes batch := by
  simp [writes]

theorem connect_mem_reads (payloads : List Bytes) (result : Except TransportError OpenStatus) :
    Call.connect result ∉ reads payloads := by
  simp [reads]

theorem connect_mem_writes (batch : List Handover) (result : Except TransportError OpenStatus) :
    Call.connect result ∉ writes batch := by
  simp [writes]

/-- The link is up if it has just come up, or has stayed up as the transport
was not closed. -/
theorem connected_iff (h : TickStep due isOpen ready state calls events state') :
    state' = .connected ↔
      .connect (.ok .connected) ∈ calls ∨ (state = .connected ∧ .close ∉ calls) := by
  cases h <;> simp_all [close_mem_reads, close_mem_writes, connect_mem_reads, connect_mem_writes]

/-- An attempt is pending if it has just become so, or has not been gone on
with. -/
theorem connecting_iff (h : TickStep due isOpen ready state calls events state') :
    state' = .connecting ↔ .connect (.ok .pending) ∈ calls ∨
      (state = .connecting ∧ ∀ result, .connect result ∉ calls) := by
  cases h <;> simp_all [connect_mem_reads, connect_mem_writes]

end TickStep

namespace Transport

variable {τ : Type} [Transport τ]

/-- The calls that reading everything makes: the last one finds nothing or
fails. -/
def Inflow.calls (inflow : Inflow τ) : List Call :=
  reads inflow.payloads ++
    [.read (match inflow.failure with
      | none => .ok none
      | some e => .error e)]

theorem calls_readAll_eq (t : Recorded τ) :
    (readAll t).transport.calls = t.calls ++ (readAll t).calls := by
  induction t using readAll.induct with
  | case1 t payload t' h ih =>
    rw [readAll_eq, h]
    simp only [ih, calls_read h, List.append_assoc]
    rfl
  | case2 t t' h =>
    rw [readAll_eq, h]
    exact calls_read h
  | case3 t e t' h =>
    rw [readAll_eq, h]
    exact calls_read h

end Transport

namespace Supervisor

variable {τ : Type} [Transport τ]

/-! ## One tick -/

/-- Messages are written as long as there are any and no write fails. -/
theorem flush_ready {s : Supervisor (Recorded τ)} (h : s.session.queue.WellFormed) :
    ∃ batch, Handed batch s.flush.1 ∧ s.flush.2.session.queue.WellFormed ∧
      s.flush.2.transport.calls = s.transport.calls ++ writes batch ∧
      s.session.queue.ready = batch.map Prod.fst ++ s.flush.2.session.queue.ready ∧
      (s.flush.1 = none → s.flush.2.session.queue.ready = []) ∧
      s.flush.2.state = s.state := by
  induction s using Supervisor.flush.induct with
  | case1 s session hd =>
    obtain ⟨hwf, hready, hnone⟩ := SendQueue.ready_of_drain h (Session.drain_frame hd).1
    rw [flush_eq, hd]
    exact ⟨[], .done, hwf, (List.append_nil _).symm, hready, fun _ => hnone rfl, rfl⟩
  | case2 s message session hd u transport hw ih =>
    obtain ⟨hwf, hready, -⟩ := SendQueue.ready_of_drain h (Session.drain_frame hd).1
    obtain ⟨batch, hbatch, hwf', hcalls, hlater, hnone, hstate⟩ := ih hwf
    rw [flush_eq, hd]
    simp only [hw]
    refine ⟨(message, .ok ()) :: batch, .sent message hbatch, hwf', ?_, ?_, hnone, hstate⟩
    · rw [hcalls, Transport.calls_write hw, List.append_assoc]
      rfl
    · rw [hready]
      exact congrArg (message :: ·) hlater
  | case3 s message session hd e transport hw =>
    obtain ⟨hwf, hready, -⟩ := SendQueue.ready_of_drain h (Session.drain_frame hd).1
    rw [flush_eq, hd]
    simp only [hw]
    refine ⟨[(message, .error e)], .failed message e, hwf, Transport.calls_write hw, hready, ?_⟩
    exact ⟨fun he => absurd he (Option.some_ne_none e), trivial⟩

theorem tickStep_attempt {s : Supervisor (Recorded τ)} (hstate : s.state ≠ .connected)
    (isOpen : Bool) (ready : List Bytes) (now : Instant) :
    ∃ calls, (s.attempt now).supervisor.transport.calls = s.transport.calls ++ calls ∧
      TickStep true isOpen ready s.state calls (s.attempt now).events
        (s.attempt now).supervisor.state := by
  unfold attempt
  cases hc : Transport.connect (s.schedule now).transport with
  | mk result transport =>
    have hcall : transport.calls = s.transport.calls ++ [.connect result] :=
      Transport.calls_connect hc
    simp only [hc]
    cases result with
    | ok status =>
      cases status with
      | connected => exact ⟨_, hcall, .opens hstate rfl⟩
      | pending => exact ⟨_, hcall, .pends hstate rfl⟩
    | error e =>
      cases hs : s.state with
      | connected => exact absurd hs hstate
      | disconnected =>
        simp only [schedule, hs]
        exact ⟨_, hcall, .refused e rfl⟩
      | connecting =>
        simp only [schedule, hs]
        refine ⟨[.connect (.error e), .close], ?_, .fails e rfl⟩
        change transport.calls ++ [.close] = _
        rw [hcall, List.append_assoc]
        rfl

theorem tickStep_service {s : Supervisor (Recorded τ)} (h : s.session.queue.WellFormed)
    (hstate : s.state = .connected) (due : Bool) (now : Instant) :
    ∃ calls, (s.service now).supervisor.transport.calls = s.transport.calls ++ calls ∧
      TickStep due (Transport.isOpen s.transport) s.session.queue.ready .connected calls
        (s.service now).events (s.service now).supervisor.state := by
  unfold service
  cases ho : Transport.isOpen s.transport with
  | false => exact ⟨[.close], rfl, .gone rfl⟩
  | true =>
    have hread := Transport.calls_readAll_eq s.transport
    rw [if_pos rfl]
    dsimp only
    cases hf : (Transport.readAll s.transport).failure with
    | some e =>
      refine ⟨_, ?_, .unreadable rfl _ e⟩
      change (Transport.readAll s.transport).transport.calls ++ [.close] = _
      rw [hread, Transport.Inflow.calls, hf, List.append_assoc, List.append_assoc]
      rfl
    | none =>
      obtain ⟨batch, hbatch, -, hcalls, hready, hnone, hkept⟩ :=
        flush_ready (s := { s with transport := (Transport.readAll s.transport).transport }) h
      dsimp only
      cases hfl : flush { s with transport := (Transport.readAll s.transport).transport } with
      | mk failure s' =>
        rw [hfl] at hbatch hcalls hready hnone hkept
        simp only at hbatch hcalls hready hnone hkept
        rw [hread, Transport.Inflow.calls, hf] at hcalls
        cases failure with
        | none =>
          rw [hnone rfl, List.append_nil] at hready
          have hkept : s'.state = .connected := hkept.trans hstate
          refine ⟨reads (Transport.readAll s.transport).payloads ++
            .read (.ok none) :: writes batch, ?_, ?_⟩
          · simpa using hcalls
          · dsimp only
            rw [List.append_nil, hkept]
            exact .serves rfl _ hbatch hready.symm
        | some e =>
          refine ⟨reads (Transport.readAll s.transport).payloads ++
            .read (.ok none) :: (writes batch ++ [.close]), ?_,
            .unwritable rfl _ hbatch ⟨_, hready.symm⟩⟩
          change s'.transport.calls ++ [.close] = _
          rw [hcalls]
          simp

/-- Every tick is one of the nine. -/
theorem tickStep_advance {s : Supervisor (Recorded τ)} (h : s.session.queue.WellFormed)
    (now : Instant) :
    ∃ calls, (s.advance now).supervisor.transport.calls = s.transport.calls ++ calls ∧
      TickStep (s.nextAttempt.le now) (Transport.isOpen s.transport) s.session.queue.ready s.state
        calls (s.advance now).events (s.advance now).supervisor.state := by
  unfold advance
  split
  · rename_i hstate
    rw [hstate]
    exact tickStep_service h hstate _ now
  · rename_i hstate
    cases hdue : s.nextAttempt.le now with
    | true => exact tickStep_attempt hstate _ _ now
    | false => exact ⟨[], (List.append_nil _).symm, .waits hstate rfl⟩

end Supervisor

/-! ## Whatever happens to the queue -/

namespace Session

theorem wellFormed_subscribe {s : Session} (h : s.queue.WellFormed) (k : Subscription) :
    (s.subscribe k).2.queue.WellFormed := wellFormed_submit h _

theorem wellFormed_announce {s : Session} (h : s.queue.WellFormed) :
    s.announce.2.queue.WellFormed :=
  submitEach_keeps (P := fun s => s.queue.WellFormed) (fun _ k h => wellFormed_subscribe h k) h _

theorem wellFormed_act {s : Session} (h : s.queue.WellFormed) (a : Act) :
    (s.act a).2.queue.WellFormed := by
  cases a with
  | setActivity activity => exact wellFormed_submit h fun n => .setActivity n s.pid activity
  | subscribe k => exact wellFormed_subscribe h k
  | unsubscribe k => exact wellFormed_submit h fun n => .unsubscribe n k
  | register k =>
    simp only [act, register]
    split
    · exact h
    · split
      · exact h
      · exact wellFormed_subscribe h k
  | setSubscriptions subscriptions => exact h
  | close => exact h

end Session

namespace Supervisor

variable {τ : Type} [Transport τ]

/-- What taking a message keeps, writing all of them does. -/
theorem session_flush {P : Session → Prop}
    (hdrain : ∀ {session session' message}, P session → session.drain = (message, session') →
      P session') {s : Supervisor τ} (h : P s.session) : P s.flush.2.session := by
  induction s using Supervisor.flush.induct with
  | case1 s session hd =>
    rw [flush_eq, hd]
    exact hdrain h hd
  | case2 s message session hd u transport hw ih =>
    rw [flush_eq, hd]
    simp only [hw]
    exact ih (hdrain h hd)
  | case3 s message session hd e transport hw =>
    rw [flush_eq, hd]
    simp only [hw]
    exact hdrain h hd

/-- What a tick does to the session: it brings the link up and announces the
handled kinds, it marks the link as down, or it takes messages. -/
theorem session_advance {P : Session → Prop}
    (hup : ∀ {session}, P session → P (session.setConnected true).announce.2)
    (hdown : ∀ {session}, P session → P (session.setConnected false))
    (hdrain : ∀ {session session' message}, P session → session.drain = (message, session') →
      P session') {s : Supervisor τ} (h : P s.session) (now : Instant) :
    P (s.advance now).supervisor.session := by
  unfold advance
  split
  · unfold service
    split
    · dsimp only
      split
      · exact hdown h
      · have hflush := session_flush hdrain
          (s := { s with transport := (Transport.readAll s.transport).transport }) h
        split
        · rename_i s' hfl
          rwa [hfl] at hflush
        · rename_i e s' hfl
          rw [hfl] at hflush
          exact hdown hflush
    · exact hdown h
  · split
    · unfold attempt
      dsimp only
      split
      · exact hup h
      · exact h
      · split
        · exact hdown h
        · exact h
    · exact h

theorem wellFormed_tick {s : Supervisor (Recorded τ)} (h : s.session.queue.WellFormed)
    (now : Instant) : (s.tick now).session.queue.WellFormed :=
  session_advance (P := fun session => session.queue.WellFormed)
    (fun h => Session.wellFormed_announce h) (fun h => h)
    (fun h hd => (SendQueue.ready_of_drain h (Session.drain_frame hd).1).1) h now

/-! ## Runs -/

/-- What can happen to a supervisor and its queue: steps of the supervisor, the
embedder and the transport, and single operations of producers and other
consumers on the queue. -/
inductive Move (τ : Type) where
  | act (a : Act τ)
  | queue (op : SendQueue.Op)

def move (s : Supervisor (Recorded τ)) : Move τ → Supervisor (Recorded τ)
  | .act a => (s.act a).2
  | .queue op => { s with session := { s.session with queue := (s.session.queue.step op).2 } }

def play (s : Supervisor (Recorded τ)) (moves : List (Move τ)) : Supervisor (Recorded τ) :=
  moves.foldl move s

theorem wellFormed_move {s : Supervisor (Recorded τ)} (h : s.session.queue.WellFormed)
    (m : Move τ) : (s.move m).session.queue.WellFormed := by
  cases m with
  | act a =>
    cases a with
    | tick now => exact wellFormed_tick h now
    | close => exact h
    | request a => exact Session.wellFormed_act h a
    | world change => exact h
  | queue op => exact (SendQueue.step_toFifo h op).1

theorem wellFormed_play {s : Supervisor (Recorded τ)} (h : s.session.queue.WellFormed)
    (moves : List (Move τ)) : (s.play moves).session.queue.WellFormed := by
  induction moves generalizing s with
  | nil => exact h
  | cons m moves ih => exact ih (wellFormed_move h m)

/-- **A tick drives the transport by a fixed protocol.** At any point of a run,
with any messages queued, taken or half written, a tick makes the calls of one
of nine steps. Whether the link is up afterwards, or an attempt is pending, can
be told by these calls and the state before; otherwise it is down. -/
theorem tick_protocol (t : τ) (slots slotCapacity : Nat) (pid : UInt32) (backoff : Backoff)
    (start : Instant) (moves : List (Move τ)) (now : Instant) :
    let s := (ofTransport (.ofTransport t) (.ofSize slots slotCapacity pid) backoff start).play moves
    ∃ calls, (s.tick now).transport.calls = s.transport.calls ++ calls ∧
      TickStep (s.nextAttempt.le now) (Transport.isOpen s.transport) s.session.queue.ready s.state
        calls (s.advance now).events (s.tick now).state ∧
      ((s.tick now).state = .connected ↔
        .connect (.ok .connected) ∈ calls ∨ (s.state = .connected ∧ .close ∉ calls)) ∧
      ((s.tick now).state = .connecting ↔ .connect (.ok .pending) ∈ calls ∨
        (s.state = .connecting ∧ ∀ result, .connect result ∉ calls)) := by
  intro s
  have hempty : (Session.ofSize slots slotCapacity pid).queue.WellFormed :=
    SendQueue.wellFormed_ofSize ..
  have hwf : s.session.queue.WellFormed := wellFormed_play hempty moves
  obtain ⟨calls, hcalls, hstep⟩ := tickStep_advance hwf now
  exact ⟨calls, hcalls, hstep, hstep.connected_iff, hstep.connecting_iff⟩

end Supervisor

end PresenceLink
