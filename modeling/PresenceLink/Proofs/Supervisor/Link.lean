import PresenceLink.Proofs.Peer
import PresenceLink.Proofs.Supervisor.Delivery

/-!
# How a tick changes the link

A tick leaves the link down, brings it up or keeps it up. In the last two cases
the payloads that reach the peer are known: none yet, or the oldest messages
that waited.

* `LinkStep`: the three cases;
* `linkStep_advance`: every tick is one of them.
-/

namespace PresenceLink.Supervisor

variable {τ : Type} [Transport τ]

/-- What a tick made of the link. -/
inductive LinkStep (s : Supervisor (Recorded τ)) (p : Progress (Recorded τ)) : Prop where
  | down (h : p.supervisor.session.flags = (s.session.subscriptions, false, s.session.closed))
  | up (hdown : s.session.connected = false)
      (hqueued : p.queued = (s.session.setConnected true).announce.1)
      (hsession : p.supervisor.session = (s.session.setConnected true).announce.2)
      (hreceived : Peer.received p.supervisor.transport.calls = [])
  | stays (hup : s.session.connected = true) (payloads : List Bytes)
      (hflags : p.supervisor.session.flags = s.session.flags)
      (hmessages : s.session.queue.messages =
        payloads ++ p.supervisor.session.queue.messages)
      (hreceived : Peer.received p.supervisor.transport.calls =
        Peer.received s.transport.calls ++ payloads)

/-- The session knows whether the link is up. -/
def Synced (s : Supervisor (Recorded τ)) : Prop := s.state = .connected ↔ s.session.connected = true

omit [Transport τ] in
theorem Synced.of_eq {s s' : Supervisor (Recorded τ)} (h : s.Synced) (hstate : s'.state = s.state)
    (hconnected : s'.session.connected = s.session.connected) : s'.Synced := by
  rw [Synced, hstate, hconnected]
  exact h

omit [Transport τ] in
/-- A link that stays up stays in its state. -/
theorem Synced.state_eq {s s' : Supervisor (Recorded τ)} (h : s.Synced) (h' : s'.Synced)
    (hup : s.session.connected = true) (hconnected : s'.session.connected = s.session.connected) :
    s'.state = s.state :=
  (h'.2 (hconnected.trans hup)).trans (h.2 hup).symm

theorem linkStep_attempt {s : Supervisor (Recorded τ)} (hdown : s.session.connected = false)
    (hstate : s.state ≠ .connected) (now : Instant) :
    (s.attempt now).supervisor.Synced ∧ LinkStep s (s.attempt now) := by
  have hflags : s.session.flags = (s.session.subscriptions, false, s.session.closed) := by
    rw [Session.flags, hdown]
  unfold attempt
  cases hc : Transport.connect (s.schedule now).transport with
  | mk result transport =>
    simp only [hc]
    cases result with
    | ok status =>
      cases status with
      | connected =>
        have hup : (s.enterConnected).supervisor.session.flags = _ :=
          Session.flags_announce (s.session.setConnected true)
        have hconnected := (Session.of_flags hup).2.1
        refine ⟨⟨fun _ => hconnected, fun _ => rfl⟩, .up hdown rfl rfl ?_⟩
        change Peer.received transport.calls = []
        rw [Transport.calls_connect hc]
        exact Peer.received_connect _
      | pending => exact ⟨by simp [Synced, hdown, schedule], .down hflags⟩
    | error e =>
      simp only
      split
      · refine ⟨?_, .down ?_⟩
        · simp [Synced, enterDisconnected, schedule, Session.setConnected]
        · rfl
      · exact ⟨by simp [Synced, hdown, schedule, hstate], .down hflags⟩

theorem linkStep_enterDisconnected (s s' : Supervisor (Recorded τ)) (now : Instant)
    (e : TransportError) (hflags : s'.session.flags = s.session.flags) :
    (s'.enterDisconnected now e).supervisor.Synced ∧
      (s'.enterDisconnected now e).supervisor.session.flags =
        (s.session.subscriptions, false, s.session.closed) := by
  obtain ⟨h1, -, h3⟩ := Session.of_flags hflags
  refine ⟨by simp [Synced, enterDisconnected, schedule, Session.setConnected], ?_⟩
  rw [← h1, ← h3]
  rfl

theorem linkStep_service {s : Supervisor (Recorded τ)} (h : s.session.Orderly)
    (hs : s.Synced) (hup : s.state = .connected) (now : Instant) :
    (s.service now).supervisor.Synced ∧ LinkStep s (s.service now) := by
  unfold service
  cases ho : Transport.isOpen s.transport with
  | false =>
    obtain ⟨hsynced, hflags⟩ := linkStep_enterDisconnected s s now .pipeClosed rfl
    exact ⟨hsynced, .down hflags⟩
  | true =>
    obtain ⟨results, hread⟩ := Transport.calls_readAll s.transport
    rw [if_pos rfl]
    dsimp only
    cases hf : (Transport.readAll s.transport).failure with
    | some e =>
      obtain ⟨hsynced, hflags⟩ := linkStep_enterDisconnected s
        { s with transport := (Transport.readAll s.transport).transport } now e rfl
      exact ⟨hsynced, .down hflags⟩
    | none =>
      obtain ⟨batch, hbatch, hmoves, hcalls, hsession, -⟩ :=
        flush_spec (s := { s with transport := (Transport.readAll s.transport).transport }) h
      dsimp only
      cases hfl : flush { s with transport := (Transport.readAll s.transport).transport } with
      | mk failure s' =>
        rw [hfl] at hbatch hmoves hcalls hsession
        simp only at hbatch hmoves hcalls hsession
        have hflags : s'.session.flags = s.session.flags := by rw [hsession]; rfl
        cases failure with
        | none =>
          have hstate : s'.state = s.state := by rw [hsession]
          have hconnected := (Session.of_flags hflags).2.1
          refine ⟨?_, .stays (hs.1 hup) (batch.map Prod.fst) hflags ?_ ?_⟩
          · exact ⟨fun _ => hconnected.trans (hs.1 hup), fun _ => hstate.trans hup⟩
          · have hbalance := hmoves.balance
            rwa [List.map_nil, List.append_nil] at hbalance
          · change Peer.received s'.transport.calls = _
            rw [hcalls, Peer.received_write _ _ (hbatch.all_ok rfl)]
            rw [hread, Peer.received_read]
        | some e =>
          obtain ⟨hsynced, hflags⟩ := linkStep_enterDisconnected s s' now e hflags
          exact ⟨hsynced, .down hflags⟩

theorem linkStep_advance {s : Supervisor (Recorded τ)} (h : s.session.Orderly)
    (hs : s.Synced) (now : Instant) :
    (s.advance now).supervisor.Synced ∧ LinkStep s (s.advance now) := by
  unfold advance
  split
  · rename_i hup
    exact linkStep_service h hs hup now
  · rename_i hstate
    have hdown : s.session.connected = false := by
      rw [← Bool.not_eq_true]
      exact fun hc => hstate (hs.2 hc)
    split
    · exact linkStep_attempt hdown hstate now
    · exact ⟨hs, .down (by rw [Session.flags, hdown])⟩

end PresenceLink.Supervisor
