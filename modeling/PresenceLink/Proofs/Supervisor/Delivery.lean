import PresenceLink.Proofs.Session.Submit
import PresenceLink.Supervisor
import PresenceLink.Transport.Script

/-!
# What becomes of queued commands

Between any two operations on a supervisor and its session, the commands that
were queued are those handed to the transport, in that order, and behind them
those that still wait. Nothing is lost, doubled or overtaken, however often
the link goes down: a loss leaves the queue alone, and a write that fails
uses up its own message only.

* `Moves`: what a step hands over and what it queues, and `Moves.act` for any
  step;
* `flush_spec`: the queue is written until it is empty or a write fails;
* `service_spec`: the same of a tick on a link that is up;
* `delivery`: the balance of a run.
-/

namespace PresenceLink

/-- A message handed to a transport, and the result. -/
abbrev Handover := Bytes × Except TransportError Unit

def Call.handover? : Call → Option Handover
  | write payload result => some (payload, result)
  | _ => none

def handovers (calls : List Call) : List Handover := calls.filterMap Call.handover?

/-- Messages handed over one after the other, up to the first failure. -/
inductive Handed : List Handover → Option TransportError → Prop
  | done : Handed [] none
  | failed (message : Bytes) (e : TransportError) : Handed [(message, .error e)] (some e)
  | sent (message : Bytes) {batch : List Handover} {failure : Option TransportError} :
      Handed batch failure → Handed ((message, .ok ()) :: batch) failure

theorem Handed.all_ok {batch : List Handover} {failure : Option TransportError}
    (h : Handed batch failure) (hf : failure = none) : ∀ w ∈ batch, w.2 = .ok () := by
  induction h with
  | done => simp
  | failed message e => cases hf
  | sent message _ ih =>
    intro w hw
    rcases List.mem_cons.1 hw with rfl | hw
    · rfl
    · exact ih hf w hw

theorem handovers_append (calls more : List Call) :
    handovers (calls ++ more) = handovers calls ++ handovers more := List.filterMap_append

theorem handovers_read (results : List (Except TransportError (Option Bytes))) :
    handovers (results.map Call.read) = [] := by
  induction results with
  | nil => rfl
  | cons r results ih => exact ih

namespace Transport

variable {τ : Type} [Transport τ]

theorem calls_read {t t' : Recorded τ} {result : Except TransportError (Option Bytes)}
    (h : read t = (result, t')) : t'.calls = t.calls ++ [.read result] := by
  obtain ⟨h1, rfl⟩ := Prod.mk.injEq .. ▸ h
  rw [← h1]
  rfl

theorem calls_write {t t' : Recorded τ} {payload : Bytes} {result : Except TransportError Unit}
    (h : write t payload = (result, t')) : t'.calls = t.calls ++ [.write payload result] := by
  obtain ⟨h1, rfl⟩ := Prod.mk.injEq .. ▸ h
  rw [← h1]
  rfl

theorem calls_connect {t t' : Recorded τ} {result : Except TransportError OpenStatus}
    (h : connect t = (result, t')) : t'.calls = t.calls ++ [.connect result] := by
  obtain ⟨h1, rfl⟩ := Prod.mk.injEq .. ▸ h
  rw [← h1]
  rfl

/-- Reading makes no other calls. -/
theorem calls_readAll (t : Recorded τ) :
    ∃ results : List (Except TransportError (Option Bytes)),
      (readAll t).transport.calls = t.calls ++ results.map Call.read := by
  induction t using readAll.induct with
  | case1 t payload t' h ih =>
    obtain ⟨results, ih⟩ := ih
    refine ⟨.ok (some payload) :: results, ?_⟩
    rw [readAll_eq, h]
    simp only [ih, calls_read h, List.map_cons, List.append_assoc, List.singleton_append]
  | case2 t t' h =>
    refine ⟨[.ok none], ?_⟩
    rw [readAll_eq, h]
    exact calls_read h
  | case3 t e t' h =>
    refine ⟨[.error e], ?_⟩
    rw [readAll_eq, h]
    exact calls_read h

end Transport

namespace Supervisor

variable {τ : Type} [Transport τ]

/-- A step that queues some commands and hands over some messages. -/
structure Moves (s : Supervisor (Recorded τ)) (commands : List Command) (batch : List Handover)
    (s' : Supervisor (Recorded τ)) : Prop where
  orderly : s'.session.Orderly
  numbered : Numbered s.session.queue.nextAdd commands s'.session.queue.nextAdd
  handovers : handovers s'.transport.calls = handovers s.transport.calls ++ batch
  /-- Nothing is lost or doubled, and messages leave in the order in which they
  came. -/
  balance : s.session.queue.messages ++ commands.map Command.encode =
    batch.map Prod.fst ++ s'.session.queue.messages

namespace Moves

variable {s s' s'' : Supervisor (Recorded τ)} {commands more : List Command}
  {batch batch' : List Handover}

omit [Transport τ] in
theorem of_queues (h : Session.Queues s.session commands s'.session)
    (hc : PresenceLink.handovers s'.transport.calls = PresenceLink.handovers s.transport.calls) :
    Moves s commands [] s' where
  orderly := h.orderly
  numbered := h.numbered
  handovers := by rw [hc, List.append_nil]
  balance := by rw [h.messages, List.map_nil, List.nil_append]

omit [Transport τ] in
/-- A step that leaves the queue alone. -/
theorem of_queue_eq (h : s.session.Orderly) (hq : s'.session.queue = s.session.queue)
    (hn : s'.session.nextNonce = s.session.nextNonce)
    (hc : PresenceLink.handovers s'.transport.calls = PresenceLink.handovers s.transport.calls) :
    Moves s [] [] s' :=
  of_queues (.of_queue_eq h hq hn) hc

omit [Transport τ] in
theorem trans (h : Moves s commands batch s') (h' : Moves s' more batch' s'') :
    Moves s (commands ++ more) (batch ++ batch') s'' where
  orderly := h'.orderly
  numbered := h.numbered.append h'.numbered
  handovers := by rw [h'.handovers, h.handovers, List.append_assoc]
  balance := by
    rw [List.map_append, ← List.append_assoc, h.balance, List.append_assoc, h'.balance,
      List.map_append, List.append_assoc]

end Moves

/-! ## Writing what is queued -/

theorem flush_spec {s : Supervisor (Recorded τ)} (h : s.session.Orderly) :
    ∃ batch, Handed batch s.flush.1 ∧ Moves s [] batch s.flush.2 ∧
      s.flush.2.transport.calls = s.transport.calls ++ batch.map (fun w => .write w.1 w.2) ∧
      s.flush.2 = { s with
        session := { s.session with queue := s.flush.2.session.queue },
        transport := s.flush.2.transport } ∧
      (s.flush.1 = none →
        s.flush.2.session.queue.messages = [] ∧ s.flush.2.session.queue.pending = 0) := by
  induction s using Supervisor.flush.induct with
  | case1 s session hd =>
    obtain ⟨horderly, hmessages, hadd, hnone⟩ := h.of_drain hd
    obtain ⟨-, hframe⟩ := Session.drain_frame hd
    rw [flush_eq, hd]
    refine ⟨[], .done, ⟨horderly, .nil (Nat.le_of_eq hadd.symm), ?_, ?_⟩, ?_, ?_,
      fun _ => hnone rfl⟩
    · rw [List.append_nil]
    · simpa using hmessages
    · rw [List.map_nil, List.append_nil]
    · exact congrArg (fun session => { s with session }) hframe
  | case2 s message session hd u transport hw ih =>
    obtain ⟨horderly, hmessages, hadd, -⟩ := h.of_drain hd
    obtain ⟨-, hframe⟩ := Session.drain_frame hd
    obtain ⟨batch, hbatch, hmoves, hcalls, hsession, hnone⟩ := ih horderly
    have hcall := Transport.calls_write hw
    have hstep : Moves s [] [(message, .ok ())] { s with session, transport } := by
      refine ⟨horderly, .nil (Nat.le_of_eq hadd.symm), ?_, ?_⟩
      · rw [hcall, handovers_append]
        rfl
      · simpa using hmessages
    rw [flush_eq, hd]
    simp only [hw]
    refine ⟨(message, .ok ()) :: batch, .sent message hbatch, hstep.trans hmoves, ?_, ?_, hnone⟩
    · rw [hcalls, hcall]
      simp
    · have hqueue : ∀ queue, { session with queue } = { s.session with queue } := by
        intro queue
        rw [hframe]
      rw [hsession]
      simp only [hqueue]
  | case3 s message session hd e transport hw =>
    obtain ⟨horderly, hmessages, hadd, -⟩ := h.of_drain hd
    obtain ⟨-, hframe⟩ := Session.drain_frame hd
    have hcall := Transport.calls_write hw
    rw [flush_eq, hd]
    simp only [hw]
    refine ⟨[(message, .error e)], .failed message e,
      ⟨horderly, .nil (Nat.le_of_eq hadd.symm), ?_, ?_⟩, hcall, ?_, fun he => by cases he⟩
    · rw [hcall, handovers_append]
      rfl
    · simpa using hmessages
    · exact congrArg (fun session => { s with session, transport }) hframe

/-! ## Ticks -/

theorem moves_enterDisconnected {s : Supervisor (Recorded τ)} (h : s.session.Orderly)
    (now : Instant) (e : TransportError) :
    Moves s [] [] (s.enterDisconnected now e).supervisor := by
  refine Moves.of_queue_eq h rfl rfl ?_
  change handovers (s.transport.calls ++ [.close]) = _
  rw [handovers_append]
  exact List.append_nil _

omit [Transport τ] in
theorem moves_enterConnected {s : Supervisor (Recorded τ)} (h : s.session.Orderly) :
    Moves s s.enterConnected.queued [] s.enterConnected.supervisor := by
  have hup : (s.session.setConnected true).Orderly := ⟨h.idle, h.nextNonce⟩
  have hqueues := Session.Queues.announce hup
  exact .of_queues ⟨hqueues.orderly, hqueues.messages, hqueues.numbered⟩ rfl

theorem moves_attempt {s : Supervisor (Recorded τ)} (h : s.session.Orderly) (now : Instant) :
    Moves s (s.attempt now).queued [] (s.attempt now).supervisor := by
  unfold attempt
  cases hc : Transport.connect (s.schedule now).transport with
  | mk result transport =>
    have hopened : Moves s [] [] { s.schedule now with transport } := by
      refine Moves.of_queue_eq h rfl rfl ?_
      rw [Transport.calls_connect hc, handovers_append]
      exact List.append_nil _
    simp only [hc]
    cases result with
    | ok status =>
      cases status with
      | connected => exact hopened.trans (moves_enterConnected hopened.orderly)
      | pending => exact ⟨hopened.orderly, hopened.numbered, hopened.handovers, hopened.balance⟩
    | error e =>
      simp only
      split
      · exact hopened.trans (moves_enterDisconnected hopened.orderly now e)
      · exact hopened

/-- A tick on a link that is up hands over messages only after everything that
was there to read has been read without an error. -/
theorem service_spec {s : Supervisor (Recorded τ)} (h : s.session.Orderly) (now : Instant) :
    ∃ batch failure, Handed batch failure ∧ Moves s [] batch (s.service now).supervisor ∧
      (s.service now).queued = [] ∧
      (batch ≠ [] → Transport.isOpen s.transport = true ∧
        (Transport.readAll s.transport).failure = none) ∧
      (Transport.isOpen s.transport = true → (Transport.readAll s.transport).failure = none →
        failure = none → (s.service now).supervisor.session.queue.messages = [] ∧
          (s.service now).supervisor.session.queue.pending = 0) := by
  unfold service
  cases ho : Transport.isOpen s.transport with
  | false =>
    exact ⟨[], none, .done, moves_enterDisconnected h now _, rfl, fun hb => absurd rfl hb,
      fun h => by cases h⟩
  | true =>
    obtain ⟨results, hcalls⟩ := Transport.calls_readAll s.transport
    have hread : Moves s [] []
        { s with transport := (Transport.readAll s.transport).transport } := by
      refine Moves.of_queue_eq h rfl rfl ?_
      rw [hcalls, handovers_append, handovers_read, List.append_nil]
    rw [if_pos rfl]
    dsimp only
    cases hf : (Transport.readAll s.transport).failure with
    | some e =>
      exact ⟨[], none, .done, hread.trans (moves_enterDisconnected hread.orderly now e), rfl,
        fun hb => absurd rfl hb, fun _ h => by cases h⟩
    | none =>
      obtain ⟨batch, hbatch, hmoves, -, -, hnone⟩ := flush_spec hread.orderly
      dsimp only
      cases hfl : flush { s with transport := (Transport.readAll s.transport).transport } with
      | mk failure s' =>
        rw [hfl] at hbatch hmoves hnone
        cases failure with
        | none =>
          exact ⟨batch, none, hbatch, hread.trans hmoves, rfl, fun _ => ⟨rfl, rfl⟩,
            fun _ _ _ => hnone rfl⟩
        | some e =>
          refine ⟨batch, some e, hbatch, ?_, rfl, fun _ => ⟨rfl, rfl⟩, fun _ _ he => by cases he⟩
          have hlost := (hread.trans hmoves).trans (moves_enterDisconnected hmoves.orderly now e)
          simp only [List.append_nil, List.nil_append] at hlost
          exact hlost

theorem moves_advance {s : Supervisor (Recorded τ)} (h : s.session.Orderly) (now : Instant) :
    ∃ batch, Moves s (s.advance now).queued batch (s.advance now).supervisor := by
  have hstay : Moves s [] [] s := .of_queue_eq h rfl rfl rfl
  unfold advance
  split
  · obtain ⟨batch, failure, -, hmoves, hqueued, -⟩ := service_spec h now
    exact ⟨batch, hqueued ▸ hmoves⟩
  · split
    · exact ⟨[], moves_attempt h now⟩
    · exact ⟨[], hstay⟩

theorem queue_tick (s : Supervisor (Recorded τ)) (now : Instant) :
    (s.tick now).session.queue = (s.advance now).supervisor.session.queue := rfl

theorem transport_tick (s : Supervisor (Recorded τ)) (now : Instant) :
    (s.tick now).transport = (s.advance now).supervisor.transport := rfl

theorem moves_tick {s : Supervisor (Recorded τ)} (h : s.session.Orderly) (now : Instant) :
    ∃ batch, Moves s (s.advance now).queued batch (s.tick now) := by
  obtain ⟨batch, hmoves⟩ := moves_advance h now
  have hstored : Moves (s.advance now).supervisor [] [] (s.tick now) :=
    .of_queue_eq hmoves.orderly rfl rfl rfl
  have htick := hmoves.trans hstored
  rw [List.append_nil, List.append_nil] at htick
  exact ⟨batch, htick⟩

/-! ## Runs -/

/-- What can happen to a supervisor: its own steps, those of the embedder on
the session, and anything that the transport does by itself. -/
inductive Act (τ : Type) where
  | tick (now : Instant)
  | close
  | request (a : Session.Act)
  | world (change : τ → τ)

/-- The commands that a step queues, and the supervisor behind it. -/
def act (s : Supervisor (Recorded τ)) : Act τ → List Command × Supervisor (Recorded τ)
  | .tick now => ((s.advance now).queued, s.tick now)
  | .close => ([], s.close)
  | .request a => s.withSession fun session => session.act a
  | .world change =>
    ([], { s with transport := { s.transport with inner := change s.transport.inner } })

/-- All commands that a run queues, in order. -/
def run (s : Supervisor (Recorded τ)) : List (Act τ) → List Command × Supervisor (Recorded τ)
  | [] => ([], s)
  | a :: acts =>
    let (queued, s) := s.act a
    let (more, s) := s.run acts
    (queued ++ more, s)

theorem moves_act {s : Supervisor (Recorded τ)} (h : s.session.Orderly) (a : Act τ) :
    ∃ batch, Moves s (s.act a).1 batch (s.act a).2 := by
  cases a with
  | tick now => exact moves_tick h now
  | close =>
    refine ⟨[], .of_queue_eq h rfl rfl ?_⟩
    change handovers (s.transport.calls ++ [.close]) = _
    rw [handovers_append]
    exact List.append_nil _
  | request a => exact ⟨[], .of_queues (Session.Queues.act h a) rfl⟩
  | world change => exact ⟨[], .of_queue_eq h rfl rfl rfl⟩

theorem moves_run {s : Supervisor (Recorded τ)} (h : s.session.Orderly) (acts : List (Act τ)) :
    ∃ batch, Moves s (s.run acts).1 batch (s.run acts).2 := by
  induction acts generalizing s with
  | nil => exact ⟨[], .of_queue_eq h rfl rfl rfl⟩
  | cons a acts ih =>
    obtain ⟨batch, hstep⟩ := moves_act h a
    obtain ⟨batch', hrest⟩ := ih hstep.orderly
    exact ⟨batch ++ batch', hstep.trans hrest⟩

/-- **Every queued command is delivered once and in order.** At any point of a
run over any transport, the commands queued so far, as they are written, are
the payloads handed over so far and behind them the messages that wait. Their
numbers grow. A tick on a link that is up hands over the next messages up to
the first failure, and only if all reading went well; if nothing fails, nothing
is left. -/
theorem delivery (t : τ) (slots slotCapacity : Nat) (pid : UInt32) (backoff : Backoff)
    (start : Instant) (acts : List (Act τ)) :
    let r := (ofTransport (.ofTransport t) (.ofSize slots slotCapacity pid) backoff start).run acts
    r.2.session.queue.nextAdd < 2 ^ 64 →
    r.1.map Command.encode =
        (handovers r.2.transport.calls).map Prod.fst ++ r.2.session.queue.messages ∧
      r.1.Pairwise (fun c d => c.nonce < d.nonce) ∧
      ∀ now, r.2.state = .connected → ∃ batch failure, Handed batch failure ∧
        handovers (r.2.tick now).transport.calls = handovers r.2.transport.calls ++ batch ∧
        r.2.session.queue.messages =
          batch.map Prod.fst ++ (r.2.tick now).session.queue.messages ∧
        (batch ≠ [] → Transport.isOpen r.2.transport = true ∧
          (Transport.readAll r.2.transport).failure = none) ∧
        (Transport.isOpen r.2.transport = true →
          (Transport.readAll r.2.transport).failure = none → failure = none →
          (r.2.tick now).session.queue.messages = [] ∧
            (r.2.tick now).session.queue.pending = 0) := by
  intro r hbound
  let first :=
    ofTransport (Recorded.ofTransport t) (Session.ofSize slots slotCapacity pid) backoff start
  have hfirst : first.session.Orderly := Session.orderly_ofSize slots slotCapacity pid
  obtain ⟨batch, hrun⟩ := moves_run hfirst acts
  have hempty : first.session.queue.messages = [] := SendQueue.messages_ofSize ..
  have hbalance := hrun.balance
  have hhandovers : handovers r.2.transport.calls = batch := hrun.handovers
  rw [hempty, List.nil_append] at hbalance
  refine ⟨by rw [hhandovers]; exact hbalance, hrun.numbered.pairwise hbound, ?_⟩
  intro now hup
  obtain ⟨batch, failure, hbatch, hmoves, -, hread, hall⟩ := service_spec hrun.orderly now
  have hadvance : r.2.advance now = r.2.service now := by rw [advance, hup]
  rw [queue_tick, transport_tick, hadvance]
  refine ⟨batch, failure, hbatch, hmoves.handovers, ?_, hread, hall⟩
  have hservice := hmoves.balance
  rwa [List.map_nil, List.append_nil] at hservice

/-- A link that came up and a request that waits for the next tick. -/
theorem delivery_of_one_request :
    let t : Instant := .zero
    let r := (ofTransport (.ofTransport ({} : Script)) (.ofSize 1 64 7) .standard t).run
      [.tick t, .request (.subscribe .joinGame)]
    r.2.session.queue.nextAdd < 2 ^ 64 ∧ r.2.state = .connected ∧ r.1 = [.subscribe 1 .joinGame] ∧
      r.1.map Command.encode =
        (handovers r.2.transport.calls).map Prod.fst ++ r.2.session.queue.messages := by
  intro t r
  have hbound : r.2.session.queue.nextAdd < 2 ^ 64 := by decide +kernel
  refine ⟨hbound, by decide +kernel, by decide +kernel, ?_⟩
  exact (delivery ({} : Script) 1 64 7 .standard t [.tick t, .request (.subscribe .joinGame)]
    hbound).1

end Supervisor

end PresenceLink
