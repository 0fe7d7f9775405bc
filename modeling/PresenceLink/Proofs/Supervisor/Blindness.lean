import PresenceLink.Proofs.Supervisor.Events

/-!
# What the peer cannot influence

Two supervisors whose transports differ only in the payloads that they read do
the same calls with the same answers, queue and write the same messages, and
go through the same states at the same times. What was read comes into the
cells of the peer's own events in the mailbox and nowhere else.

* `Session.Ignores`: an operation of the session that does not look at the
  mailbox;
* `Transport.Blind`: a relation of transports that nothing but the payloads
  tells apart;
* `twin_advance`, `twin_turns`: two supervisors that are alike stay so;
* `Script.blind`: scripts that differ only in the payloads laid down;
* `payloads_do_not_matter`: all of this at any point of two runs.
-/

namespace PresenceLink

/-- What was read, without the payload. -/
def blanked (result : Except TransportError Bytes) : Except TransportError Bytes :=
  result.map fun _ => []

/-- A call without the payload that was read. -/
def Call.blanked : Call → Call
  | read (.ok (some _)) => read (.ok (some []))
  | c => c

theorem Call.sent?_blanked (c : Call) : c.blanked.sent? = c.sent? := by
  rcases c with result | - | (e | - | payload) | ⟨payload, result⟩ <;> rfl

/-! ## Sessions -/

namespace Session

/-- An operation that does not look at the mailbox and leaves it alone. -/
def Ignores {β : Type} (f : Session → β × Session) : Prop :=
  ∀ s mailbox, f { s with mailbox } = ((f s).1, { (f s).2 with mailbox })

theorem Ignores.map {β γ : Type} {f : Session → β × Session} (hf : Ignores f) (g : β → γ) :
    Ignores fun s => (g (f s).1, (f s).2) := by
  intro s mailbox
  dsimp only
  rw [hf s mailbox]

theorem submit_mailbox (s : Session) (mailbox : Mailbox) (build : UInt64 → Command) :
    submit { s with mailbox } build =
      ((s.submit build).1, { (s.submit build).2 with mailbox }) := by
  obtain ⟨queue, old, nextNonce, pid, subscriptions, connected, closed⟩ := s
  cases closed with
  | true => rfl
  | false =>
    simp only [submit, Bool.false_eq_true, if_false]
    cases queue.reserve with
    | none => rfl
    | some reserved =>
      simp only
      split <;> rfl

theorem ignores_setActivity (activity : Option Presence) : Ignores (setActivity · activity) :=
  fun s mailbox => submit_mailbox s mailbox fun n => .setActivity n s.pid activity

theorem ignores_subscribe (k : Subscription) : Ignores (subscribe · k) :=
  fun s mailbox => submit_mailbox s mailbox fun n => .subscribe n k

theorem ignores_unsubscribe (k : Subscription) : Ignores (unsubscribe · k) :=
  fun s mailbox => submit_mailbox s mailbox fun n => .unsubscribe n k

theorem ignores_submitEach {request : Session → Subscription → Option Command × Session}
    (hrequest : ∀ k, Ignores (request · k)) (kinds : List Subscription) :
    Ignores (submitEach request · kinds) := by
  induction kinds with
  | nil => exact fun s mailbox => rfl
  | cons k kinds ih =>
    intro s mailbox
    have hfirst : request { s with mailbox } k = _ := hrequest k s mailbox
    have hothers : submitEach request { (request s k).2 with mailbox } kinds = _ :=
      ih (request s k).2 mailbox
    simp only [submitEach, hfirst, hothers]

theorem ignores_announce : Ignores announce := fun s =>
  ignores_submitEach ignores_subscribe s.subscriptions.toList s

theorem ignores_register (k : Subscription) : Ignores (register · k) := by
  intro s mailbox
  have hsubscribe : subscribe { s with mailbox } k = _ := ignores_subscribe k s mailbox
  simp only [register, hsubscribe]
  split
  · rfl
  · split <;> rfl

theorem ignores_queue (op : SendQueue.Op) :
    Ignores fun s => ((), { s with queue := (s.queue.step op).2 }) := fun _ _ => rfl

theorem ignores_drain : Ignores drain := fun _ _ => rfl

theorem ignores_act (a : Act) : Ignores (act · a) := by
  cases a with
  | setActivity activity => exact (ignores_setActivity activity).map Option.toList
  | subscribe k => exact (ignores_subscribe k).map Option.toList
  | unsubscribe k => exact (ignores_unsubscribe k).map Option.toList
  | register k =>
    intro s mailbox
    have hregister : register { s with mailbox } k = _ := ignores_register k s mailbox
    have hsubscribe : subscribe { s with mailbox } k = _ := ignores_subscribe k s mailbox
    simp only [act, hregister, hsubscribe]
  | setSubscriptions subscriptions => exact fun _ _ => rfl
  | close => exact fun _ _ => rfl

/-- Sessions that differ at most in what the peer has sent. -/
def Alike (s s' : Session) : Prop :=
  ∃ mailbox, s' = { s with mailbox } ∧ s.mailbox.link = mailbox.link

theorem Alike.refl (s : Session) : s.Alike s := ⟨s.mailbox, rfl, rfl⟩

/-- An operation that does not look at the mailbox has the same result and
keeps sessions alike. -/
theorem Alike.ask {β : Type} {f : Session → β × Session} (hf : Ignores f) {s s' : Session}
    (h : s.Alike s') : (f s).1 = (f s').1 ∧ (f s).2.Alike (f s').2 := by
  obtain ⟨mailbox, rfl, hlink⟩ := h
  have hkept : (f s).2.mailbox = s.mailbox := congrArg (fun r => r.2.mailbox) (hf s s.mailbox)
  rw [hf s mailbox]
  exact ⟨rfl, mailbox, rfl, by rw [hkept]; exact hlink⟩

theorem Alike.setConnected {s s' : Session} (h : s.Alike s') (up : Bool) :
    (s.setConnected up).Alike (s'.setConnected up) := by
  obtain ⟨mailbox, rfl, hlink⟩ := h
  exact ⟨mailbox, rfl, hlink⟩

theorem Alike.publishAll {s s' : Session} (h : s.Alike s') {events events' : List Event}
    (he : events.filter Event.isLink = events'.filter Event.isLink) :
    (s.publishAll events).Alike (s'.publishAll events') := by
  obtain ⟨mailbox, rfl, hlink⟩ := h
  refine ⟨mailbox.publishAll events', rfl, ?_⟩
  change (s.mailbox.publishAll events).link = _
  rw [Mailbox.link_publishAll hlink events, he]
  exact (Mailbox.link_publishAll rfl events').symm

theorem Alike.take {s s' : Session} (h : s.Alike s') (k : EventKind) :
    Alike { s with mailbox := (s.mailbox.take k).2 } { s' with mailbox := (s'.mailbox.take k).2 } := by
  obtain ⟨mailbox, rfl, hlink⟩ := h
  exact ⟨(mailbox.take k).2, rfl, Mailbox.link_take hlink k⟩

end Session

/-! ## Transports -/

namespace Transport

variable {τ : Type} [Transport τ] {R : τ → τ → Prop}

/-- Related transports give the same answers, up to the payloads that they
read, and stay related. -/
structure Blind (R : τ → τ → Prop) : Prop where
  connect {t t' : τ} (h : R t t') : (connect t).1 = (connect t').1 ∧ R (connect t).2 (connect t').2
  close {t t' : τ} (h : R t t') : R (close t) (close t')
  isOpen {t t' : τ} (h : R t t') : isOpen t = isOpen t'
  read {t t' : τ} (h : R t t') :
    (Call.read (read t).1).blanked = (Call.read (read t').1).blanked ∧ R (read t).2 (read t').2
  write {t t' : τ} (h : R t t') (payload : Bytes) :
    (write t payload).1 = (write t' payload).1 ∧ R (write t payload).2 (write t' payload).2

/-- What is read is the same but for a payload. -/
theorem eq_of_blanked {result result' : Except TransportError (Option Bytes)}
    (h : (Call.read result).blanked = (Call.read result').blanked) :
    result = result' ∨ ∃ payload payload', result = .ok (some payload) ∧
      result' = .ok (some payload') := by
  rcases result with e | _ | payload <;> rcases result' with e' | _ | payload'
  all_goals first
    | exact Or.inr ⟨payload, payload', rfl, rfl⟩
    | exact Or.inl (Call.read.inj h)
    | cases h

theorem readAll_of_blind (hR : Blind R) {t t' : τ} (h : R t t') :
    (readAll t).failure = (readAll t').failure ∧
      R (readAll t).transport (readAll t').transport := by
  induction t using readAll.induct generalizing t' with
  | case1 t payload u hr ih =>
    obtain ⟨hresult, hafter⟩ := hR.read h
    have hsame : ∃ payload', (read t').1 = .ok (some payload') := by
      rcases eq_of_blanked hresult with heq | ⟨-, payload', -, heq⟩
      · exact ⟨payload, by rw [← heq, hr]⟩
      · exact ⟨payload', heq⟩
    obtain ⟨payload', hr'⟩ := hsame
    rw [readAll_eq, readAll_eq t', hr, show read t' = (_, (read t').2) from Prod.ext hr' rfl]
    rw [hr] at hafter
    exact ih hafter
  | case2 t u hr =>
    obtain ⟨hresult, hafter⟩ := hR.read h
    have hr' : (read t').1 = .ok none := by
      rcases eq_of_blanked hresult with heq | ⟨payload, -, heq, -⟩
      · rw [← heq, hr]
      · rw [hr] at heq
        cases heq
    rw [readAll_eq, readAll_eq t', hr, show read t' = (_, (read t').2) from Prod.ext hr' rfl]
    rw [hr] at hafter
    exact ⟨rfl, hafter⟩
  | case3 t e u hr =>
    obtain ⟨hresult, hafter⟩ := hR.read h
    have hr' : (read t').1 = .error e := by
      rcases eq_of_blanked hresult with heq | ⟨payload, -, heq, -⟩
      · rw [← heq, hr]
      · rw [hr] at heq
        cases heq
    rw [readAll_eq, readAll_eq t', hr, show read t' = (_, (read t').2) from Prod.ext hr' rfl]
    rw [hr] at hafter
    exact ⟨rfl, hafter⟩

end Transport

/-- Related transports on which the same calls were made, up to the payloads
that were read. -/
def Recorded.Alike {τ : Type} (R : τ → τ → Prop) (t t' : Recorded τ) : Prop :=
  R t.inner t'.inner ∧ t.calls.map Call.blanked = t'.calls.map Call.blanked

theorem Recorded.blind {τ : Type} [Transport τ] {R : τ → τ → Prop} (hR : Transport.Blind R) :
    Transport.Blind (Recorded.Alike R) := by
  have hrecord : ∀ {t t' : Recorded τ} {inner inner' : τ} {c c' : Call}, t.Alike R t' →
      R inner inner' → c.blanked = c'.blanked → (t.record inner c).Alike R (t'.record inner' c') := by
    intro t t' inner inner' c c' h hinner hc
    refine ⟨hinner, ?_⟩
    simp only [record, List.map_append, h.2, List.map_cons, hc, List.map_nil]
  constructor
  · intro t t' h
    obtain ⟨hresult, hinner⟩ := hR.connect h.1
    exact ⟨hresult, hrecord h hinner (congrArg (fun r => (Call.connect r).blanked) hresult)⟩
  · intro t t' h
    exact hrecord h (hR.close h.1) rfl
  · intro t t' h
    exact hR.isOpen h.1
  · intro t t' h
    obtain ⟨hresult, hinner⟩ := hR.read h.1
    exact ⟨hresult, hrecord h hinner hresult⟩
  · intro t t' h payload
    obtain ⟨hresult, hinner⟩ := hR.write h.1 payload
    exact ⟨hresult, hrecord h hinner (congrArg (fun r => (Call.write payload r).blanked) hresult)⟩

/-! ## Supervisors -/

namespace Supervisor

section
variable {τ : Type} [Transport τ] {R : τ → τ → Prop}

/-- Two supervisors that differ at most in what the peer has sent. -/
structure Twin (R : τ → τ → Prop) (s s' : Supervisor τ) : Prop where
  transport : R s.transport s'.transport
  session : s.session.Alike s'.session
  backoff : s.backoff = s'.backoff
  state : s.state = s'.state
  nextAttempt : s.nextAttempt = s'.nextAttempt

/-- Steps of two such supervisors that tell the same of the link. -/
structure TwinStep (R : τ → τ → Prop) (p p' : Progress τ) : Prop where
  supervisor : Twin R p.supervisor p'.supervisor
  events : p.events.filter Event.isLink = p'.events.filter Event.isLink

variable {s s' : Supervisor τ}

omit [Transport τ] in
theorem twin_schedule (h : Twin R s s') (now : Instant) :
    Twin R (s.schedule now) (s'.schedule now) where
  transport := h.transport
  session := h.session
  backoff := congrArg (fun b : Backoff => b.next.2) h.backoff
  state := h.state
  nextAttempt := congrArg (fun b : Backoff => due now b.next.1) h.backoff

omit [Transport τ] in
theorem twin_enterConnected (h : Twin R s s') : TwinStep R s.enterConnected s'.enterConnected where
  supervisor :=
    { transport := h.transport
      session := ((h.session.setConnected true).ask Session.ignores_announce).2
      backoff := congrArg Backoff.reset h.backoff
      state := rfl
      nextAttempt := h.nextAttempt }
  events := rfl

theorem twin_enterDisconnected (hR : Transport.Blind R) (h : Twin R s s') (now : Instant)
    (e : TransportError) : TwinStep R (s.enterDisconnected now e) (s'.enterDisconnected now e) := by
  have hclosed : Twin R
      { s with transport := Transport.close s.transport,
               session := s.session.setConnected false, state := .disconnected }
      { s' with transport := Transport.close s'.transport,
                session := s'.session.setConnected false, state := .disconnected } :=
    { transport := hR.close h.transport
      session := h.session.setConnected false
      backoff := h.backoff
      state := rfl
      nextAttempt := h.nextAttempt }
  exact ⟨twin_schedule hclosed now, rfl⟩

/-- A failure counts as a loss in both or in neither. -/
theorem twin_failure (hR : Transport.Blind R) (h : Twin R s s') (now : Instant)
    (e : TransportError) :
    TwinStep R
      (match s.state with
        | .connecting => s.enterDisconnected now e
        | _ => { supervisor := s })
      (match s'.state with
        | .connecting => s'.enterDisconnected now e
        | _ => { supervisor := s' }) := by
  rw [← h.state]
  split
  · exact twin_enterDisconnected hR h now e
  · exact ⟨h, rfl⟩

theorem twin_attempt (hR : Transport.Blind R) (h : Twin R s s') (now : Instant) :
    TwinStep R (s.attempt now) (s'.attempt now) := by
  have hscheduled := twin_schedule h now
  obtain ⟨hresult, hafter⟩ := hR.connect hscheduled.transport
  have hopened : Twin R
      { s.schedule now with transport := (Transport.connect (s.schedule now).transport).2 }
      { s'.schedule now with transport := (Transport.connect (s'.schedule now).transport).2 } :=
    { hscheduled with transport := hafter }
  unfold attempt
  dsimp only
  rw [← hresult]
  cases (Transport.connect (s.schedule now).transport).1 with
  | ok status =>
    cases status with
    | connected => exact twin_enterConnected hopened
    | pending => exact ⟨{ hopened with state := rfl }, rfl⟩
  | error e =>
    exact twin_failure hR hopened now e

theorem twin_flush (hR : Transport.Blind R) (h : Twin R s s') :
    s.flush.1 = s'.flush.1 ∧ Twin R s.flush.2 s'.flush.2 := by
  induction s using Supervisor.flush.induct generalizing s' with
  | case1 s session hd =>
    obtain ⟨hmessage, hsession⟩ := h.session.ask Session.ignores_drain
    have hd' : s'.session.drain = (none, s'.session.drain.2) :=
      Prod.ext (by rw [← hmessage, hd]) rfl
    rw [hd] at hsession
    rw [flush_eq, flush_eq s', hd, hd']
    exact ⟨rfl, { h with session := hsession }⟩
  | case2 s message session hd u transport hw ih =>
    obtain ⟨hmessage, hsession⟩ := h.session.ask Session.ignores_drain
    obtain ⟨hresult, hafter⟩ := hR.write h.transport message
    have hd' : s'.session.drain = (some message, s'.session.drain.2) :=
      Prod.ext (by rw [← hmessage, hd]) rfl
    have hw' : Transport.write s'.transport message =
        (.ok u, (Transport.write s'.transport message).2) := Prod.ext (by rw [← hresult, hw]) rfl
    rw [hd] at hsession
    rw [hw] at hafter
    rw [flush_eq, flush_eq s', hd, hd']
    dsimp only
    rw [hw, hw']
    have hnext : Twin R { s with session, transport } { s' with
        session := s'.session.drain.2, transport := (Transport.write s'.transport message).2 } :=
      { h with session := hsession, transport := hafter }
    exact ih hnext
  | case3 s message session hd e transport hw =>
    obtain ⟨hmessage, hsession⟩ := h.session.ask Session.ignores_drain
    obtain ⟨hresult, hafter⟩ := hR.write h.transport message
    have hd' : s'.session.drain = (some message, s'.session.drain.2) :=
      Prod.ext (by rw [← hmessage, hd]) rfl
    have hw' : Transport.write s'.transport message =
        (.error e, (Transport.write s'.transport message).2) := Prod.ext (by rw [← hresult, hw]) rfl
    rw [hd] at hsession
    rw [hw] at hafter
    rw [flush_eq, flush_eq s', hd, hd']
    dsimp only
    rw [hw, hw']
    exact ⟨rfl, { h with session := hsession, transport := hafter }⟩

omit [Transport τ] in
/-- Events that were read are not of the link. -/
theorem TwinStep.read {p p' : Progress τ} (h : TwinStep R p p') (payloads payloads' : List Bytes) :
    TwinStep R { p with events := eventsOf payloads ++ p.events }
      { p' with events := eventsOf payloads' ++ p'.events } where
  supervisor := h.supervisor
  events := by
    rw [List.filter_append, List.filter_append, isLink_eventsOf, isLink_eventsOf, h.events]

theorem twin_service (hR : Transport.Blind R) (h : Twin R s s') (now : Instant) :
    TwinStep R (s.service now) (s'.service now) := by
  obtain ⟨hfailure, hafter⟩ := Transport.readAll_of_blind hR h.transport
  have hread : Twin R { s with transport := (Transport.readAll s.transport).transport }
      { s' with transport := (Transport.readAll s'.transport).transport } :=
    { h with transport := hafter }
  unfold service
  rw [← hR.isOpen h.transport]
  split
  · dsimp only
    refine TwinStep.read ?_ _ _
    rw [← hfailure]
    cases (Transport.readAll s.transport).failure with
    | some e => exact twin_enterDisconnected hR hread now e
    | none =>
      obtain ⟨hresult, hflushed⟩ := twin_flush hR hread
      dsimp only
      generalize flush { s with transport := (Transport.readAll s.transport).transport } = r at *
      generalize flush { s' with transport := (Transport.readAll s'.transport).transport } = r' at *
      obtain ⟨failure, u⟩ := r
      obtain ⟨failure', u'⟩ := r'
      cases hresult
      cases failure with
      | none => exact ⟨hflushed, rfl⟩
      | some e => exact twin_enterDisconnected hR hflushed now e
  · exact twin_enterDisconnected hR h now _

theorem twin_advance (hR : Transport.Blind R) (h : Twin R s s') (now : Instant) :
    TwinStep R (s.advance now) (s'.advance now) := by
  unfold advance
  rw [← h.state, ← h.nextAttempt]
  split
  · exact twin_service hR h now
  · split
    · exact twin_attempt hR h now
    · exact ⟨h, rfl⟩

theorem twin_tick (hR : Transport.Blind R) (h : Twin R s s') (now : Instant) :
    Twin R (s.tick now) (s'.tick now) := by
  obtain ⟨hsupervisor, hevents⟩ := twin_advance hR h now
  exact { hsupervisor with session := hsupervisor.session.publishAll hevents }

theorem twin_close (hR : Transport.Blind R) (h : Twin R s s') : Twin R s.close s'.close :=
  { h with
    transport := hR.close h.transport
    session := h.session.setConnected false
    state := rfl }

end

/-! ## Runs -/

section
variable {τ : Type} [Transport τ] {R : τ → τ → Prop}

/-- Turns that differ at most in what the peer sends: the same turn, or what
the transport does by itself, if that keeps the transports alike. -/
inductive Turn.Alike (R : τ → τ → Prop) : Turn τ → Turn τ → Prop where
  | tick (now : Instant) : Alike R (.tick now) (.tick now)
  | close : Alike R .close .close
  | request (a : Session.Act) : Alike R (.move (.act (.request a))) (.move (.act (.request a)))
  | world {change change' : τ → τ} (h : ∀ t t', R t t' → R (change t) (change' t')) :
      Alike R (.move (.act (.world change))) (.move (.act (.world change')))
  | queue (op : SendQueue.Op) : Alike R (.move (.queue op)) (.move (.queue op))
  | take (k : EventKind) : Alike R (.take k) (.take k)

variable {s s' : Supervisor (Recorded τ)}

theorem twin_turn (hR : Transport.Blind R) (h : Twin (Recorded.Alike R) s s') {t t' : Turn τ}
    (ht : Turn.Alike R t t') : Twin (Recorded.Alike R) (s.turn t) (s'.turn t') := by
  have hrecorded := Recorded.blind hR
  cases ht with
  | tick now => exact twin_tick hrecorded h now
  | close => exact twin_close hrecorded h
  | request a => exact { h with session := (h.session.ask (Session.ignores_act a)).2 }
  | world hchange => exact { h with transport := ⟨hchange _ _ h.transport.1, h.transport.2⟩ }
  | queue op => exact { h with session := (h.session.ask (Session.ignores_queue op)).2 }
  | take k => exact { h with session := h.session.take k }

theorem twin_turns (hR : Transport.Blind R) (h : Twin (Recorded.Alike R) s s') {ts ts' : List (Turn τ)}
    (hts : List.Forall₂ (Turn.Alike R) ts ts') :
    Twin (Recorded.Alike R) (s.turns ts) (s'.turns ts') := by
  induction hts generalizing s s' with
  | nil => exact h
  | cons ht _ ih => exact ih (twin_turn hR h ht)

end

end Supervisor

/-! ## Scripts -/

namespace Script

/-- A script without the payloads that it lays down. -/
def blanked (t : Script) : Script := { t with inbound := t.inbound.map PresenceLink.blanked }

/-- Scripts that lay down the same results in the same places, but for the
payloads. -/
def Alike (t t' : Script) : Prop := t.blanked = t'.blanked

variable {t t' : Script}

theorem alike_iff : t.Alike t' ↔ t.opens = t'.opens ∧
    t.inbound.map PresenceLink.blanked = t'.inbound.map PresenceLink.blanked ∧
    t.writes = t'.writes ∧ t.up = t'.up := by
  simp only [Alike, blanked, mk.injEq]

theorem Alike.addInbound (h : t.Alike t') {inbound inbound' : List (Except TransportError Bytes)}
    (hinbound : inbound.map PresenceLink.blanked = inbound'.map PresenceLink.blanked) :
    (t.addInbound inbound).Alike (t'.addInbound inbound') := by
  rw [alike_iff] at h ⊢
  simp only [Script.addInbound, List.map_append, h, hinbound, and_self]

theorem Alike.setUp (h : t.Alike t') (up : Bool) : (t.setUp up).Alike (t'.setUp up) := by
  rw [alike_iff] at h ⊢
  simp only [Script.setUp, h, and_self]

/-- What a script answers does not depend on the payloads that it lays down. -/
theorem blind : Transport.Blind Alike where
  connect {t t'} h := by
    rw [alike_iff] at h
    obtain ⟨hopens, hinbound, hwrites, hup⟩ := h
    change (Script.connect t).1 = (Script.connect t').1 ∧
      Alike (Script.connect t).2 (Script.connect t').2
    unfold Script.connect
    rw [← hopens]
    split <;> exact ⟨rfl, alike_iff.2 ⟨by simp [hopens], hinbound, hwrites, rfl⟩⟩
  close {t t'} h := h.setUp false
  isOpen {t t'} h := (alike_iff.1 h).2.2.2
  read {t t'} h := by
    obtain ⟨opens, inbound, writes, up⟩ := t
    obtain ⟨opens', inbound', writes', up'⟩ := t'
    obtain ⟨rfl, hinbound, rfl, rfl⟩ := alike_iff.1 h
    cases inbound with
    | nil =>
      cases inbound' with
      | nil => exact ⟨rfl, rfl⟩
      | cons r' inbound' => cases hinbound
    | cons r inbound =>
      cases inbound' with
      | nil => cases hinbound
      | cons r' inbound' =>
        obtain ⟨hr, hrest⟩ := List.cons.inj hinbound
        cases r <;> cases r' <;> cases hr
        all_goals exact ⟨rfl, alike_iff.2 ⟨rfl, hrest, rfl, rfl⟩⟩
  write {t t'} h payload := by
    rw [alike_iff] at h
    obtain ⟨hopens, hinbound, hwrites, hup⟩ := h
    change (Script.write t payload).1 = (Script.write t' payload).1 ∧
      Alike (Script.write t payload).2 (Script.write t' payload).2
    unfold Script.write
    rw [← hwrites]
    split <;> exact ⟨rfl, alike_iff.2 ⟨hopens, hinbound, by simp [hwrites], hup⟩⟩

end Script

namespace Supervisor

/-- **Payloads do not matter to the link.** Take two runs of the same turns over
scripts that lay down the same results in the same places, but for the payloads
that there are to read. After any number of turns the supervisors are in the
same state and wait for the same time, their sessions have the same flags, kinds
and queue, they have made the same calls and sent the same messages, and the
two cells of the link in their mailboxes are the same. -/
theorem payloads_do_not_matter {t t' : Script} (h : t.Alike t') (slots slotCapacity : Nat)
    (pid : UInt32) (backoff : Backoff) (start : Instant) {ts ts' : List (Turn Script)}
    (hts : List.Forall₂ (Turn.Alike Script.Alike) ts ts') (n : Nat) :
    let s := (ofTransport (.ofTransport t) (.ofSize slots slotCapacity pid) backoff start).turns
      (ts.take n)
    let s' := (ofTransport (.ofTransport t') (.ofSize slots slotCapacity pid) backoff start).turns
      (ts'.take n)
    s.state = s'.state ∧ s.nextAttempt = s'.nextAttempt ∧
      s.session.connected = s'.session.connected ∧ s.session.closed = s'.session.closed ∧
      s.session.subscriptions = s'.session.subscriptions ∧ s.session.queue = s'.session.queue ∧
      s.session.queue.pending = s'.session.queue.pending ∧
      s.transport.calls.map Call.blanked = s'.transport.calls.map Call.blanked ∧
      s.transport.calls.filterMap Call.sent? = s'.transport.calls.filterMap Call.sent? ∧
      s.session.mailbox.connected = s'.session.mailbox.connected ∧
      s.session.mailbox.disconnected = s'.session.mailbox.disconnected := by
  intro s s'
  have hstart : Twin (Recorded.Alike Script.Alike)
      (ofTransport (.ofTransport t) (.ofSize slots slotCapacity pid) backoff start)
      (ofTransport (.ofTransport t') (.ofSize slots slotCapacity pid) backoff start) :=
    ⟨⟨h, rfl⟩, .refl _, rfl, rfl, rfl⟩
  have htwin : Twin (Recorded.Alike Script.Alike) s s' :=
    twin_turns Script.blind hstart (List.forall₂_take n hts)
  have hsent : ∀ calls : List Call,
      (calls.map Call.blanked).filterMap Call.sent? = calls.filterMap Call.sent? := by
    intro calls
    rw [List.filterMap_map]
    exact List.filterMap_congr fun c _ => c.sent?_blanked
  have hcalls := htwin.transport.2
  obtain ⟨mailbox, hsession, hlink⟩ := htwin.session
  obtain ⟨hconnected, hdisconnected⟩ := Prod.mk.inj hlink
  rw [hsession, ← hsent s.transport.calls, ← hsent s'.transport.calls, hcalls]
  exact ⟨htwin.state, htwin.nextAttempt, rfl, rfl, rfl, rfl, rfl, rfl, rfl, hconnected, hdisconnected⟩

/-- A request to join comes in one run, and what is no message in the other. -/
theorem payloads_do_not_matter_to_one_link :
    let request := Utf8.ofString "\x7b\"evt\":\"ACTIVITY_JOIN_REQUEST\"\x7d"
    let first := ofTransport (.ofTransport ({} : Script)) (.ofSize 1 64 7) .standard .zero
    let ts : Bytes → List (Turn Script) := fun payload => [.tick .zero,
      .move (.act (.world fun t => t.addInbound [.ok payload])), .tick .zero]
    let s := first.turns (ts request)
    let s' := first.turns (ts [255])
    s.state = s'.state ∧ s.nextAttempt = s'.nextAttempt ∧ s.session.queue = s'.session.queue ∧
      s.transport.calls.map Call.blanked = s'.transport.calls.map Call.blanked := by
  intro request first ts s s'
  have halike : ∀ payload payload', List.Forall₂ (Turn.Alike Script.Alike) (ts payload) (ts payload') :=
    fun payload payload' =>
      .cons (.tick _) (.cons (.world fun t t' h => h.addInbound rfl) (.cons (.tick _) .nil))
  obtain ⟨hstate, hnext, -, -, -, hqueue, -, hcalls, -⟩ :=
    payloads_do_not_matter (show Script.Alike {} {} from rfl) 1 64 7 .standard .zero (halike _ _) 3
  exact ⟨hstate, hnext, hqueue, hcalls⟩

end Supervisor

end PresenceLink
