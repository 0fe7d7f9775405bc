import PresenceLink.Proofs.Mailbox.Cells
import PresenceLink.Proofs.Supervisor.Link
import PresenceLink.Proofs.Supervisor.Protocol

/-!
# The events of the link

A tick that brings the link up publishes a connection, and one that gives up a
link or a pending attempt publishes a loss with the error that was the cause.
No other tick, nothing that the peer sends and nothing else that happens to a
supervisor publishes either. The session knows at any time whether the link is
up.

* `TickStep.news`: the events of the link that a tick publishes;
* `link_publishAll`: what becomes of them in the mailbox;
* `sound_turns`: what the session knows;
* `loss_between`: a link that comes up again was lost before;
* `link_events`: all of this at any point of a run.
-/

namespace PresenceLink

/-- An event that tells of the link and not of what the peer sent. -/
def Event.isLink : Event → Bool
  | connected | disconnected .. => true
  | _ => false

/-- The error that a call reports. -/
def Call.failure? : Call → Option TransportError
  | connect (.error e) | read (.error e) | write _ (.error e) => some e
  | _ => none

/-- The error for which a tick gives up the link or a pending attempt: the
first that a call reports, and none is needed on a transport that is found
closed. The first call of an attempt may fail without a loss. -/
def lossOf (state : LinkState) (isOpen : Bool) (calls : List Call) : Option TransportError :=
  match state with
  | .disconnected => none
  | .connecting => calls.findSome? Call.failure?
  | .connected => if isOpen then calls.findSome? Call.failure? else some .pipeClosed

/-! ## One tick -/

theorem isLink_eventsOf (payloads : List Bytes) : (eventsOf payloads).filter Event.isLink = [] := by
  rw [List.filter_eq_nil_iff]
  intro e he
  obtain ⟨payload, -, hpayload⟩ := List.mem_filterMap.1 he
  obtain ⟨event, -, rfl⟩ := Option.map_eq_some_iff.1 hpayload
  cases event <;> exact Bool.false_ne_true

theorem failure?_reads (payloads : List Bytes) (more : List Call) :
    (reads payloads ++ more).findSome? Call.failure? = more.findSome? Call.failure? := by
  induction payloads with
  | nil => rfl
  | cons payload payloads ih => exact ih

theorem Handed.failure?_writes {batch : List Handover} {failure : Option TransportError}
    (h : Handed batch failure) (more : List Call) :
    (writes batch ++ more).findSome? Call.failure? = failure.or (more.findSome? Call.failure?) := by
  induction h with
  | done => rfl
  | failed message e => rfl
  | sent message _ ih => exact ih

namespace TickStep

variable {due isOpen : Bool} {ready : List Bytes} {state state' : LinkState} {calls : List Call}
  {events : List Event}

theorem loss_of_down {calls : List Call} (h : state ≠ .connected)
    (hc : calls.findSome? Call.failure? = none) : lossOf state isOpen calls = none := by
  cases state with
  | connected => exact absurd rfl h
  | connecting => exact hc
  | disconnected => rfl

/-- A tick gives up the link or an attempt, or brings the link up, or publishes
nothing about it. -/
theorem outcome (h : TickStep due isOpen ready state calls events state') :
    (∃ e, lossOf state isOpen calls = some e ∧ state ≠ .disconnected ∧ state' = .disconnected ∧
        events.filter Event.isLink = [e.toEvent]) ∨
      (lossOf state isOpen calls = none ∧ state ≠ .connected ∧ state' = .connected ∧
        events = [.connected]) ∨
      (lossOf state isOpen calls = none ∧
        (state' = state ∨ state ≠ .connected ∧ state' = .connecting) ∧
        events.filter Event.isLink = []) := by
  cases h with
  | waits h hdue => exact Or.inr (Or.inr ⟨loss_of_down h rfl, Or.inl rfl, rfl⟩)
  | opens h hdue => exact Or.inr (Or.inl ⟨loss_of_down h rfl, h, rfl, rfl⟩)
  | pends h hdue => exact Or.inr (Or.inr ⟨loss_of_down h rfl, Or.inr ⟨h, rfl⟩, rfl⟩)
  | refused e hdue => exact Or.inr (Or.inr ⟨rfl, Or.inl rfl, rfl⟩)
  | fails e hdue => exact Or.inl ⟨e, rfl, LinkState.noConfusion, rfl, rfl⟩
  | gone ho =>
    refine Or.inl ⟨.pipeClosed, ?_, LinkState.noConfusion, rfl, rfl⟩
    rw [lossOf, ho]
    rfl
  | unreadable ho payloads e =>
    refine Or.inl ⟨e, ?_, LinkState.noConfusion, rfl, ?_⟩
    · rw [lossOf, if_pos ho, failure?_reads]
      rfl
    · rw [List.filter_append, isLink_eventsOf]
      rfl
  | serves ho payloads hb hq =>
    refine Or.inr (Or.inr ⟨?_, Or.inl rfl, isLink_eventsOf payloads⟩)
    have hwrites := hb.failure?_writes []
    rw [List.append_nil] at hwrites
    rw [lossOf, if_pos ho, failure?_reads]
    exact hwrites
  | @unwritable ho payloads batch e hb hq =>
    refine Or.inl ⟨e, ?_, LinkState.noConfusion, rfl, ?_⟩
    · rw [lossOf, if_pos ho, failure?_reads]
      exact hb.failure?_writes [.close]
    · rw [List.filter_append, isLink_eventsOf]
      rfl

/-- There is a loss if the link goes down or a pending attempt fails. -/
theorem loss_iff (h : TickStep due isOpen ready state calls events state') :
    (lossOf state isOpen calls).isSome ↔
      (state = .connected ∧ state' ≠ .connected) ∨ (state = .connecting ∧ state' = .disconnected) := by
  rcases h.outcome with ⟨e, hloss, hstate, rfl, -⟩ | ⟨hloss, hstate, rfl, -⟩ | ⟨hloss, hstate, -⟩
  · rw [hloss]
    cases state <;> simp_all
  · rw [hloss]
    simp [hstate]
  · rw [hloss]
    rcases hstate with rfl | ⟨hstate, rfl⟩
    · cases state' <;> simp
    · simp [hstate]

/-- A tick publishes its loss if there is one, and else the connection if the
link has come up. -/
theorem news (h : TickStep due isOpen ready state calls events state') :
    events.filter Event.isLink = match lossOf state isOpen calls with
      | some e => [.disconnected e.code e.message]
      | none => if state ≠ .connected ∧ state' = .connected then [.connected] else [] := by
  rcases h.outcome with ⟨e, hloss, -, -, hnews⟩ | ⟨hloss, hstate, rfl, rfl⟩ | ⟨hloss, hstate, hnews⟩
  · rw [hloss, hnews]
    rfl
  · rw [hloss, if_pos ⟨hstate, rfl⟩]
    rfl
  · rw [hloss, hnews, if_neg]
    rintro ⟨hbefore, rfl⟩
    rcases hstate with rfl | ⟨-, hpending⟩
    · exact hbefore rfl
    · cases hpending

end TickStep

/-! ## In the mailbox -/

namespace Mailbox

/-- The two cells of the link. -/
def link (m : Mailbox) : Bool × LatestCell ErrorInfo := (m.connected, m.disconnected)

theorem link_publish {m m' : Mailbox} (h : m.link = m'.link) (e : Event) :
    (m.publish e).link = (m'.publish e).link := by
  obtain ⟨hup, hdown⟩ := Prod.mk.inj h
  cases e with
  | connected => exact congrArg (Prod.mk true) hdown
  | disconnected code message => simp only [link, publish, hup, hdown]
  | _ => exact h

/-- Only the events of the link come into its cells. -/
theorem link_publishAll {m m' : Mailbox} (h : m.link = m'.link) (events : List Event) :
    (m.publishAll events).link = (m'.publishAll (events.filter Event.isLink)).link := by
  induction events generalizing m m' with
  | nil => exact h
  | cons e events ih =>
    cases he : e.isLink with
    | true =>
      rw [List.filter_cons_of_pos he]
      exact ih (link_publish h e)
    | false =>
      rw [List.filter_cons_of_neg (by simp [he])]
      refine ih (Eq.trans ?_ h)
      cases e <;> first | rfl | cases he

theorem link_take {m m' : Mailbox} (h : m.link = m'.link) (k : EventKind) :
    (m.take k).2.link = (m'.take k).2.link := by
  obtain ⟨hup, hdown⟩ := Prod.mk.inj h
  cases k with
  | connected => exact congrArg (Prod.mk false) hdown
  | disconnected => simp only [link, take, hup, hdown]
  | _ => exact h

/-- What is taken of the link is in its cells. -/
theorem take_of_link {m m' : Mailbox} (h : m.link = m'.link) :
    (m.take .connected).1 = (m'.take .connected).1 ∧
      (m.take .disconnected).1 = (m'.take .disconnected).1 := by
  obtain ⟨hup, hdown⟩ := Prod.mk.inj h
  simp only [take, hup, hdown, and_self]

end Mailbox

/-! ## What the session knows -/

/-- Requests leave alone what the link stores in the session. -/
theorem Session.act_frame (s : Session) (a : Act) :
    (s.act a).2.mailbox = s.mailbox ∧ (s.act a).2.connected = s.connected := by
  have hsubmit : ∀ build, (s.submit build).2.mailbox = s.mailbox ∧
      (s.submit build).2.connected = s.connected := by
    intro build
    obtain ⟨hmailbox, -, -, hconnected, -⟩ := s.submit_frame build
    exact ⟨hmailbox, hconnected⟩
  cases a with
  | setActivity activity => exact hsubmit fun n => .setActivity n s.pid activity
  | subscribe k => exact hsubmit fun n => .subscribe n k
  | unsubscribe k => exact hsubmit fun n => .unsubscribe n k
  | register k =>
    change (s.register k).2.mailbox = _ ∧ (s.register k).2.connected = _
    unfold register
    split
    · exact ⟨rfl, rfl⟩
    · split
      · exact ⟨rfl, rfl⟩
      · exact hsubmit fun n => .subscribe n k
  | setSubscriptions subscriptions => exact ⟨rfl, rfl⟩
  | close => exact ⟨rfl, rfl⟩

namespace Supervisor

variable {τ : Type} [Transport τ]

/-- Writing changes nothing but the session and the transport. -/
theorem flush_frame (s : Supervisor τ) :
    s.flush.2.state = s.state ∧ s.flush.2.nextAttempt = s.nextAttempt ∧
      s.flush.2.backoff = s.backoff := by
  induction s using Supervisor.flush.induct with
  | case1 s session hd =>
    rw [flush_eq, hd]
    exact ⟨rfl, rfl, rfl⟩
  | case2 s message session hd u transport hw ih =>
    rw [flush_eq, hd]
    simp only [hw]
    exact ih
  | case3 s message session hd e transport hw =>
    rw [flush_eq, hd]
    simp only [hw, and_self]

theorem synced_enterDisconnected (s : Supervisor (Recorded τ)) (now : Instant)
    (e : TransportError) : (s.enterDisconnected now e).supervisor.Synced := by
  simp [Synced, enterDisconnected, schedule, Session.setConnected]

omit [Transport τ] in
theorem synced_enterConnected (s : Supervisor (Recorded τ)) :
    s.enterConnected.supervisor.Synced := by
  have hflags := Session.flags_announce (s.session.setConnected true)
  exact ⟨fun _ => (Session.of_flags hflags).2.1, fun _ => rfl⟩

theorem synced_service {s : Supervisor (Recorded τ)} (hs : s.Synced) (now : Instant) :
    (s.service now).supervisor.Synced := by
  unfold service
  split
  · dsimp only
    split
    · exact synced_enterDisconnected ..
    · obtain ⟨hstate, -⟩ := flush_frame { s with transport := (Transport.readAll s.transport).transport }
      have hflags := session_flush (P := fun session => session.flags = s.session.flags)
        (fun h hd => (congrArg Session.flags (Session.drain_frame hd).2).trans h)
        (s := { s with transport := (Transport.readAll s.transport).transport }) rfl
      split
      · rename_i s' hfl
        rw [hfl] at hstate hflags
        exact hs.of_eq hstate (Session.of_flags hflags).2.1
      · exact synced_enterDisconnected ..
  · exact synced_enterDisconnected ..

theorem synced_attempt {s : Supervisor (Recorded τ)} (hs : s.Synced) (hstate : s.state ≠ .connected)
    (now : Instant) : (s.attempt now).supervisor.Synced := by
  have hdown : ¬ s.session.connected = true := fun h => hstate (hs.2 h)
  unfold attempt
  dsimp only
  split
  · exact synced_enterConnected _
  · exact ⟨LinkState.noConfusion, fun h => absurd h hdown⟩
  · split
    · exact synced_enterDisconnected ..
    · exact hs

theorem synced_advance {s : Supervisor (Recorded τ)} (hs : s.Synced) (now : Instant) :
    (s.advance now).supervisor.Synced := by
  unfold advance
  split
  · exact synced_service hs now
  · rename_i hstate
    split
    · exact synced_attempt hs hstate now
    · exact hs

/-! ## Runs -/

/-- What can happen to a supervisor and to the events that it has stored: any
move, and the embedder's taking an event. -/
inductive Turn (τ : Type) where
  | move (m : Move τ)
  | take (k : EventKind)

@[match_pattern]
abbrev Turn.tick (now : Instant) : Turn τ := .move (.act (.tick now))

@[match_pattern]
abbrev Turn.close : Turn τ := .move (.act .close)

def turn (s : Supervisor (Recorded τ)) : Turn τ → Supervisor (Recorded τ)
  | .move m => s.move m
  | .take k => { s with session := { s.session with mailbox := (s.session.mailbox.take k).2 } }

def turns (s : Supervisor (Recorded τ)) (ts : List (Turn τ)) : Supervisor (Recorded τ) :=
  ts.foldl turn s

/-- The events that a turn publishes. -/
def publishes (s : Supervisor (Recorded τ)) : Turn τ → List Event
  | .tick now => (s.advance now).events
  | _ => []

/-- The events that a run publishes, in order. -/
def publishesAll (s : Supervisor (Recorded τ)) : List (Turn τ) → List Event
  | [] => []
  | t :: ts => s.publishes t ++ (s.turn t).publishesAll ts

/-- The calls that a tick makes. -/
def tickCalls (s : Supervisor (Recorded τ)) (now : Instant) : List Call :=
  (s.tick now).transport.calls.drop s.transport.calls.length

theorem tickStep_tickCalls {s : Supervisor (Recorded τ)} (h : s.session.queue.WellFormed)
    (now : Instant) :
    (s.tick now).transport.calls = s.transport.calls ++ s.tickCalls now ∧
      TickStep (s.nextAttempt.le now) (Transport.isOpen s.transport) s.session.queue.ready s.state
        (s.tickCalls now) (s.advance now).events (s.tick now).state := by
  obtain ⟨calls, hcalls, hstep⟩ := tickStep_advance h now
  have htick : (s.tick now).transport.calls = s.transport.calls ++ calls := hcalls
  have hdrop : s.tickCalls now = calls := by rw [tickCalls, htick, List.drop_left]
  rw [hdrop]
  exact ⟨htick, hstep⟩

/-- What holds of a supervisor at any point of a run. -/
structure Sound (s : Supervisor (Recorded τ)) : Prop where
  wellFormed : s.session.queue.WellFormed
  synced : s.Synced

theorem sound_turn {s : Supervisor (Recorded τ)} (h : s.Sound) (t : Turn τ) : (s.turn t).Sound := by
  cases t with
  | take k => exact ⟨h.wellFormed, h.synced⟩
  | move m =>
    refine ⟨wellFormed_move h.wellFormed m, ?_⟩
    cases m with
    | queue op => exact h.synced
    | act a =>
      cases a with
      | tick now => exact synced_advance h.synced now
      | close => exact ⟨LinkState.noConfusion, Bool.noConfusion⟩
      | request a => exact h.synced.of_eq rfl (s.session.act_frame a).2
      | world change => exact h.synced

theorem sound_turns {s : Supervisor (Recorded τ)} (h : s.Sound) (ts : List (Turn τ)) :
    (s.turns ts).Sound := by
  induction ts generalizing s with
  | nil => exact h
  | cons t ts ih => exact ih (sound_turn h t)

omit [Transport τ] in
theorem sound_ofTransport (t : τ) (slots slotCapacity : Nat) (pid : UInt32) (backoff : Backoff)
    (start : Instant) :
    (ofTransport (.ofTransport t) (.ofSize slots slotCapacity pid) backoff start).Sound :=
  ⟨SendQueue.wellFormed_ofSize .., LinkState.noConfusion, Bool.noConfusion⟩

/-! ### What a run publishes -/

/-- Without a tick or a take nothing happens to the mailbox. -/
theorem mailbox_turn (s : Supervisor (Recorded τ)) {t : Turn τ} (htick : ∀ now, t ≠ .tick now)
    (htake : ∀ k, t ≠ .take k) : (s.turn t).session.mailbox = s.session.mailbox := by
  cases t with
  | take k => exact absurd rfl (htake k)
  | move m =>
    cases m with
    | queue op => rfl
    | act a =>
      cases a with
      | tick now => exact absurd rfl (htick now)
      | close => rfl
      | request a => exact (s.session.act_frame a).1
      | world change => rfl

/-- A turn that publishes a connection finds the link down, leaves it up and
publishes nothing else. -/
theorem publishes_connected {s : Supervisor (Recorded τ)} (h : s.Sound) {t : Turn τ}
    (he : .connected ∈ s.publishes t) :
    s.publishes t = [.connected] ∧ s.state ≠ .connected ∧ (s.turn t).state = .connected := by
  cases t with
  | take k => cases he
  | move m =>
    cases m with
    | queue op => cases he
    | act a =>
      cases a with
      | tick now =>
        have he : .connected ∈ (s.advance now).events.filter Event.isLink :=
          List.mem_filter.2 ⟨he, rfl⟩
        rcases (tickStep_tickCalls h.wellFormed now).2.outcome with
          ⟨e, -, -, -, hnews⟩ | ⟨-, hdown, hup, hevents⟩ | ⟨-, -, hnews⟩
        · rw [hnews, List.mem_singleton] at he
          cases he
        · exact ⟨hevents, hdown, hup⟩
        · rw [hnews] at he
          cases he
      | _ => cases he

/-- A link that is up stays up or is reported as lost, unless it is closed. -/
theorem up_or_lost {s : Supervisor (Recorded τ)} (h : s.Sound) (hup : s.state = .connected)
    {t : Turn τ} (ht : t ≠ .close) :
    (s.turn t).state = .connected ∨ ∃ e : TransportError, e.toEvent ∈ s.publishes t := by
  cases t with
  | take k => exact Or.inl hup
  | move m =>
    cases m with
    | queue op => exact Or.inl hup
    | act a =>
      cases a with
      | tick now =>
        rcases (tickStep_tickCalls h.wellFormed now).2.outcome with
          ⟨e, -, -, -, hnews⟩ | ⟨-, hdown, -⟩ | ⟨-, hstate | ⟨hdown, -⟩, -⟩
        · have he : e.toEvent ∈ (s.advance now).events.filter Event.isLink := by
            rw [hnews]
            exact List.mem_singleton_self _
          exact Or.inr ⟨e, (List.mem_filter.1 he).1⟩
        · exact absurd hup hdown
        · exact Or.inl (hstate.trans hup)
        · exact absurd hup hdown
      | close => exact absurd rfl ht
      | request a => exact Or.inl hup
      | world change => exact Or.inl hup

end Supervisor

/-- A connection that is not among the first events comes behind them. -/
theorem append_eq_of_not_mem {events more before after : List Event} {e : Event}
    (he : e ∉ events) (h : events ++ more = before ++ e :: after) :
    ∃ later, before = events ++ later ∧ more = later ++ e :: after := by
  rcases List.append_eq_append_iff.1 h with ⟨later, hbefore, hmore⟩ | ⟨later, hevents, hafter⟩
  · exact ⟨later, hbefore, hmore⟩
  · cases later with
    | nil => exact ⟨[], by simpa using hevents.symm, by simpa using hafter.symm⟩
    | cons d later =>
      obtain ⟨rfl, -⟩ := List.cons.inj hafter
      exact absurd (by rw [hevents]; simp) he

namespace Supervisor

variable {τ : Type} [Transport τ]

/-- A link that is up is lost before it comes up. -/
theorem loss_before {s : Supervisor (Recorded τ)} (h : s.Sound) (hup : s.state = .connected)
    {ts : List (Turn τ)} (hts : .close ∉ ts) {before after : List Event}
    (he : s.publishesAll ts = before ++ .connected :: after) :
    ∃ e : TransportError, e.toEvent ∈ before := by
  induction ts generalizing s before with
  | nil => simp [publishesAll] at he
  | cons t ts ih =>
    obtain ⟨ht, hts⟩ := not_or.1 (mt List.mem_cons.2 hts)
    have hnew : .connected ∉ s.publishes t := fun hc => (publishes_connected h hc).2.1 hup
    obtain ⟨later, rfl, hlater⟩ := append_eq_of_not_mem hnew he
    rcases up_or_lost h hup (Ne.symm ht) with hstays | ⟨e, hlost⟩
    · obtain ⟨e, hmem⟩ := ih (sound_turn h t) hstays hts hlater
      exact ⟨e, List.mem_append_right _ hmem⟩
    · exact ⟨e, List.mem_append_left _ hlost⟩

/-- Between two connections there is a loss. -/
theorem loss_between {s : Supervisor (Recorded τ)} (h : s.Sound) {ts : List (Turn τ)}
    (hts : .close ∉ ts) {before between after : List Event}
    (he : s.publishesAll ts = before ++ .connected :: (between ++ .connected :: after)) :
    ∃ e : TransportError, e.toEvent ∈ between := by
  induction ts generalizing s before with
  | nil => simp [publishesAll] at he
  | cons t ts ih =>
    obtain ⟨ht, hts⟩ := not_or.1 (mt List.mem_cons.2 hts)
    by_cases hnew : .connected ∈ s.publishes t
    · obtain ⟨hevents, -, hup⟩ := publishes_connected h hnew
      rw [publishesAll, hevents] at he
      cases before with
      | nil => exact loss_before (sound_turn h t) hup hts (List.cons.inj he).2
      | cons d before => exact ih (sound_turn h t) hts (List.cons.inj he).2
    · obtain ⟨later, -, hlater⟩ := append_eq_of_not_mem hnew he
      exact ih (sound_turn h t) hts hlater

/-! ## At any point of a run -/

/-- What a tick stores in the two cells of the link: a connection if the link
has come up, and a loss with its text cut to the size of a buffer. -/
theorem take_tick {s : Supervisor (Recorded τ)} (h : s.Sound) (now : Instant) :
    ((s.tick now).session.mailbox.take .connected).1 =
        (if s.state ≠ .connected ∧ (s.tick now).state = .connected then some .connected
          else (s.session.mailbox.take .connected).1) ∧
      ((s.tick now).session.mailbox.take .disconnected).1.map Delivery.event =
        match lossOf s.state (Transport.isOpen s.transport) (s.tickCalls now) with
        | some e => some (.disconnected e.code (Utf8.clip payloadCapacity e.message))
        | none => (s.session.mailbox.take .disconnected).1.map Delivery.event := by
  have hkept : (s.advance now).supervisor.session.mailbox = s.session.mailbox :=
    session_advance (P := fun session => session.mailbox = s.session.mailbox)
      (fun h => (Session.frame_submitEach Session.mailbox (fun s k => (s.submit_frame _).1) _ _).trans h)
      (fun h => h) (fun h hd => (congrArg Session.mailbox (Session.drain_frame hd).2).trans h) rfl now
  have hlink := Mailbox.link_publishAll (congrArg Mailbox.link hkept) (s.advance now).events
  obtain ⟨hup, hdown⟩ := Mailbox.take_of_link hlink
  rw [mailbox_tick, hup, hdown]
  rcases (tickStep_tickCalls h.wellFormed now).2.outcome with
    ⟨e, hloss, -, hstate, hnews⟩ | ⟨hloss, hbefore, hstate, hevents⟩ | ⟨hloss, hstate, hnews⟩
  · rw [hloss, hnews, if_neg (by rw [hstate]; simp)]
    exact ⟨rfl, Mailbox.take_publish _ e.toEvent⟩
  · rw [hloss, hevents, if_pos ⟨hbefore, hstate⟩]
    exact ⟨rfl, rfl⟩
  · rw [hloss, hnews, if_neg ?_]
    · exact ⟨rfl, rfl⟩
    · rintro ⟨hbefore, hafter⟩
      rcases hstate with hsame | ⟨-, hpending⟩
      · exact hbefore (hsame.symm.trans hafter)
      · rw [hpending] at hafter
        cases hafter

/-- **The link is reported exactly when it changes.** At any point of a run the
session knows whether the link is up. A tick that brings it up publishes one
connection. One that gives up the link or a pending attempt publishes one loss
with the code and the message of the error that was the cause, of which the
mailbox holds as much as fits into 256 octets. No other tick publishes either,
and no other turn anything at all. Unless the link is closed by hand, two
connections have a loss between them. -/
theorem link_events (t : τ) (slots slotCapacity : Nat) (pid : UInt32) (backoff : Backoff)
    (start : Instant) (ts : List (Turn τ)) :
    let first := ofTransport (.ofTransport t) (.ofSize slots slotCapacity pid) backoff start
    let s := first.turns ts
    (s.session.connected = true ↔ s.state = .connected) ∧
      (∀ now,
        let next := s.tick now
        let loss := lossOf s.state (Transport.isOpen s.transport) (s.tickCalls now)
        (loss.isSome ↔ (s.state = .connected ∧ next.state ≠ .connected) ∨
          (s.state = .connecting ∧ next.state = .disconnected)) ∧
        (s.publishes (.tick now)).filter Event.isLink = (match loss with
          | some e => [.disconnected e.code e.message]
          | none => if s.state ≠ .connected ∧ next.state = .connected then [.connected] else []) ∧
        (next.session.mailbox.take .connected).1 =
          (if s.state ≠ .connected ∧ next.state = .connected then some .connected
            else (s.session.mailbox.take .connected).1) ∧
        (next.session.mailbox.take .disconnected).1.map Delivery.event = (match loss with
          | some e => some (.disconnected e.code (Utf8.clip payloadCapacity e.message))
          | none => (s.session.mailbox.take .disconnected).1.map Delivery.event)) ∧
      (∀ turn, (∀ now, turn ≠ .tick now) → s.publishes turn = [] ∧
        ((∀ k, turn ≠ .take k) → (s.turn turn).session.mailbox = s.session.mailbox)) ∧
      (.close ∉ ts → ∀ before between after,
        first.publishesAll ts = before ++ .connected :: (between ++ .connected :: after) →
        ∃ e : TransportError, e.toEvent ∈ between) ∧
      TransportError.pipeClosed = { code := 1, message := "Pipe closed" } ∧
      ∀ text, LongestPrefix 256 text (Utf8.clip payloadCapacity text) := by
  intro first s
  have hfirst : first.Sound := sound_ofTransport t slots slotCapacity pid backoff start
  have hs : s.Sound := sound_turns hfirst ts
  refine ⟨hs.synced.symm, ?_, ?_, ?_, rfl, Utf8.longestPrefix_clip 256⟩
  · intro now next loss
    have hstep := (tickStep_tickCalls hs.wellFormed now).2
    exact ⟨hstep.loss_iff, hstep.news, take_tick hs now⟩
  · intro turn hturn
    refine ⟨?_, fun htake => mailbox_turn s hturn htake⟩
    unfold publishes
    split
    · exact absurd rfl (hturn _)
    · rfl
  · intro hts before between after he
    exact loss_between hfirst hts he

/-- A link that comes up, breaks and comes up again. -/
theorem link_events_of_broken_link :
    let now : Instant := .zero
    let ts : List (Turn Script) := [.tick now,
      .move (.act (.world fun t => t.addInbound [.error .pipeClosed])), .tick now, .tick now]
    let first := ofTransport (.ofTransport ({} : Script)) (.ofSize 1 64 7) (.ofBounds .zero .zero) now
    .close ∉ ts ∧ first.publishesAll ts = [.connected, .disconnected 1 "Pipe closed", .connected] ∧
      ∃ e : TransportError, e.toEvent ∈ [Event.disconnected 1 "Pipe closed"] := by
  intro now ts first
  have hopen : Turn.close ∉ ts := by simp [ts]
  have hevents : first.publishesAll ts = [.connected, .disconnected 1 "Pipe closed", .connected] := by
    decide +kernel
  obtain ⟨-, -, -, hloss, -⟩ :=
    link_events ({} : Script) 1 64 7 (.ofBounds .zero .zero) now ts
  exact ⟨hopen, hevents, hloss hopen [] [.disconnected 1 "Pipe closed"] [] hevents⟩

end Supervisor

end PresenceLink
