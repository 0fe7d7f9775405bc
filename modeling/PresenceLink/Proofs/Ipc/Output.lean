import PresenceLink.Config
import PresenceLink.Proofs.Command.Written
import PresenceLink.Proofs.Ipc.Lifecycle
import PresenceLink.Proofs.Ipc.Meaning

/-!
# What a client sends

On one connection a client sends whole frames and nothing else: the handshake,
then one for each message it is given to write and one for each ping it takes,
in the order in which it does so.

* `dealt`: the frames that a call takes from a stream;
* `nextMessage_deals`, `poll_deals`: what a call takes and what it sends;
* `Flow`: the octets of both directions and the events so far;
* `flow_use`, `flow_useAll`: every call and every move of the peer keeps them in
  step;
* `session_sends_frames`: the octets of a whole session.
-/

namespace PresenceLink.Ipc

/-! ## What a call takes -/

/-- A message that says that the peer is ready. -/
def saysReady (f : Frame) : Bool := f.opcode = .frame && isReady f.payload

/-- A call is over with this frame, on a link that is up or is not yet up. -/
def decides (opened : Bool) (f : Frame) : Bool :=
  (ending? f).isSome || f.opcode = .frame && (opened || isReady f.payload)

/-- A list up to the first element with some property. -/
def upTo {α : Type} (p : α → Bool) : List α → List α
  | [] => []
  | a :: as => if p a then [a] else a :: upTo p as

/-- The frames that a call takes from a stream. -/
def dealt (opened : Bool) (stream : Bytes) : List Frame :=
  upTo (decides opened) (Frame.split stream).1

/-- What is sent for a frame that is taken. -/
def reply? (f : Frame) : Option Frame :=
  if f.opcode = .ping then some { opcode := .pong, payload := f.payload } else none

/-- The octets that have come and are not yet taken. -/
def toRead (t : Ipc) : Bytes := t.received ++ (t.host.stream?.map (·.incoming)).getD []

theorem Online.toRead_eq {t : Ipc} {stream sent : Bytes} {ended : Bool}
    (h : Online t stream sent ended) : t.toRead = stream := by
  obtain ⟨c, hc, -, -, -, hs⟩ := h
  rw [toRead, hc]
  exact hs

theorem dealt_of_found {stream : Bytes} {fault : Option TransportError}
    (h : Frame.take stream = Frame.found fault) (opened : Bool) : dealt opened stream = [] := by
  rw [dealt, Frame.split_of_found h]
  rfl

theorem dealt_of_frame {stream rest : Bytes} {f : Frame} (h : Frame.take stream = .frame f rest)
    (opened : Bool) :
    dealt opened stream = if decides opened f then [f] else f :: dealt opened rest := by
  rw [dealt, Frame.split_of_frame h]
  rfl

/-- A link on which some frames have been taken from a stream, with the replies
to them. -/
structure Dealt (frames : List Frame) (stream sent : Bytes) (ended : Bool) (rest : Bytes)
    (t : Ipc) : Prop where
  fits : ∀ f ∈ frames, f.Fits
  stream : stream = Frame.written frames ++ rest
  online : Online t rest (sent ++ Frame.written (frames.filterMap reply?)) ended

section Dealt

variable {t : Ipc} {frames : List Frame} {stream sent rest : Bytes} {ended : Bool}

theorem Dealt.none (h : Online t stream sent ended) : Dealt [] stream sent ended stream t :=
  ⟨nofun, rfl, h.silent⟩

theorem Dealt.one {f : Frame} (h : Frame.take stream = .frame f rest)
    (honline : Online t rest (sent ++ Frame.written (reply? f).toList) ended) :
    Dealt [f] stream sent ended rest t := by
  obtain ⟨hf, hstream⟩ := Frame.of_take h
  refine ⟨List.forall_mem_singleton.2 hf, by rwa [Frame.written_singleton], ?_⟩
  cases hr : reply? f <;> simpa [hr] using honline

theorem Dealt.trans {more : List Frame} {rest' : Bytes} {t' : Ipc}
    (h : Dealt frames stream sent ended rest t)
    (h' : Dealt more rest (sent ++ Frame.written (frames.filterMap reply?)) ended rest' t') :
    Dealt (frames ++ more) stream sent ended rest' t' where
  fits f hf := (List.mem_append.1 hf).elim (h.fits f) (h'.fits f)
  stream := by rw [Frame.written_append, List.append_assoc, ← h'.stream, ← h.stream]
  online := by
    rw [List.filterMap_append, Frame.written_append, ← List.append_assoc]
    exact h'.online

end Dealt

/-- A reply goes out as a frame; a frame that ends the link has none. -/
theorem answer_deals {t : Ipc} {o : Opcode} {rest sent : Bytes} {ended : Bool}
    (h : Online t rest sent ended) (hf : Frame.Fits ⟨o, t.frame⟩) (hne : o ≠ .frame) :
    Online (t.answer o).2 rest (sent ++ Frame.written (reply? ⟨o, t.frame⟩).toList) ended ∧
      (ending? ⟨o, t.frame⟩).isSome = !(t.answer o).1.isOk := by
  cases o with
  | frame => exact absurd rfl hne
  | ping =>
    obtain ⟨t', hw, -, honline⟩ := writeFrame_spec (f := ⟨.pong, t.frame⟩) h hf
    rw [answer, hw]
    exact ⟨(Frame.written_singleton ⟨.pong, t.frame⟩).symm ▸ honline, rfl⟩
  | pong => exact ⟨h.silent, rfl⟩
  | close => exact ⟨h.silent, rfl⟩
  | handshake => exact ⟨h.silent, rfl⟩

/-- What looking for a message takes from a stream. -/
inductive MessageDeals (stream sent : Bytes) (ended : Bool) :
    Except TransportError (Option Bytes) × Ipc → Prop where
  | message {t : Ipc} {payload rest : Bytes} {frames : List Frame}
      (hdealt : Dealt (frames ++ [⟨.frame, payload⟩]) stream sent ended rest t)
      (hframes : ∀ opened, dealt opened stream = frames ++ ⟨.frame, payload⟩ ::
        if opened || isReady payload then [] else dealt opened rest) :
      MessageDeals stream sent ended (.ok (some payload), t)
  | other {t : Ipc} {result : Except TransportError (Option Bytes)} {rest : Bytes}
      {frames : List Frame} (hnone : ∀ payload, result ≠ .ok (some payload))
      (hdealt : Dealt frames stream sent ended rest t)
      (hframes : ∀ opened, dealt opened stream = frames) :
      MessageDeals stream sent ended (result, t)

theorem MessageDeals.after {stream sent rest : Bytes} {ended : Bool} {f : Frame} {t : Ipc}
    {result : Except TransportError (Option Bytes) × Ipc}
    (h : MessageDeals rest (sent ++ Frame.written ([f].filterMap reply?)) ended result)
    (hfirst : Dealt [f] stream sent ended rest t)
    (hframes : ∀ opened, dealt opened stream = f :: dealt opened rest) :
    MessageDeals stream sent ended result := by
  cases h with
  | @message _ payload _ frames hdealt hrest =>
    have hall : Dealt (f :: frames ++ [⟨.frame, payload⟩]) stream sent ended _ _ :=
      hfirst.trans hdealt
    refine .message hall fun opened => ?_
    rw [hframes, hrest]
    rfl
  | other hnone hdealt hrest =>
    refine .other hnone (hfirst.trans hdealt) fun opened => ?_
    rw [hframes, hrest]
    rfl

theorem nextMessage_deals {t : Ipc} {stream sent : Bytes} {ended : Bool}
    (h : Online t stream sent ended) : MessageDeals stream sent ended t.nextMessage := by
  fun_induction nextMessage t generalizing stream sent with
  | case1 t e t' hn =>
    have hstep := nextFrame_spec h
    rw [hn] at hstep
    cases hstep with
    | corrupt htake honline =>
      exact .other (by simp) (.none honline) (@dealt_of_found _ (some e) htake)
    | finished htake hended honline =>
      exact .other (by simp) (.none honline) (@dealt_of_found _ none htake)
  | case2 t t' hn =>
    have hstep := nextFrame_spec h
    rw [hn] at hstep
    cases hstep with
    | pending htake hended hstate honline =>
      exact .other (by simp) (.none honline) (@dealt_of_found _ none htake)
  | case3 t t' hn =>
    have hstep := nextFrame_spec h
    rw [hn] at hstep
    cases hstep with
    | @frame _ _ rest htake hstate honline =>
      have hone : Dealt ([] ++ [⟨.frame, t'.frame⟩]) stream sent ended rest t' :=
        .one htake honline.silent
      refine .message hone fun opened => ?_
      rw [dealt_of_frame htake]
      simp only [decides, ending?, Option.isSome_none, Bool.false_or, decide_true, Bool.true_and]
      split <;> rfl
  | case4 t o t' ho hn e t'' ha =>
    have hstep := nextFrame_spec h
    rw [hn] at hstep
    cases hstep with
    | @frame _ _ rest htake hstate honline =>
      obtain ⟨honline', hends⟩ := answer_deals honline (Frame.of_take htake).1 ho
      rw [ha] at honline' hends
      refine .other (by simp) (.one htake honline') fun opened => ?_
      rw [dealt_of_frame htake, decides, hends]
      rfl
  | case5 t o t' ho hn r t'' ha ih =>
    have hstep := nextFrame_spec h
    rw [hn] at hstep
    cases hstep with
    | @frame _ _ rest htake hstate honline =>
      obtain ⟨honline', hends⟩ := answer_deals honline (Frame.of_take htake).1 ho
      rw [ha] at honline' hends
      have hfirst := Dealt.one htake honline'
      refine (ih hfirst.online).after hfirst fun opened => ?_
      have hno : decides opened ⟨o, t'.frame⟩ = false := by
        rw [decides, hends, decide_eq_false ho]
        rfl
      rw [dealt_of_frame htake, hno, if_neg Bool.false_ne_true]

/-- A poll takes frames up to the message that says that the peer is ready. -/
theorem poll_deals {t : Ipc} {stream sent : Bytes} {ended : Bool}
    (h : Online t stream sent ended) :
    ∃ rest, Dealt (dealt false stream) stream sent ended rest t.poll.2 ∧
      (t.poll.2.state = .ready → t.state = .ready ∨ ∃ f ∈ dealt false stream, saysReady f) := by
  fun_induction poll t generalizing stream sent with
  | case1 t e t' hn =>
    have hmessage := nextMessage_deals h
    have hstate := state_nextMessage t
    rw [hn] at hmessage hstate
    cases hmessage with
    | other _ hdealt hframes => exact ⟨_, hframes false ▸ hdealt, fun hr => Or.inl (hstate ▸ hr)⟩
  | case2 t t' hn =>
    have hmessage := nextMessage_deals h
    have hstate := state_nextMessage t
    rw [hn] at hmessage hstate
    cases hmessage with
    | other _ hdealt hframes => exact ⟨_, hframes false ▸ hdealt, fun hr => Or.inl (hstate ▸ hr)⟩
  | case3 t payload t' hn hready =>
    have hmessage := nextMessage_deals h
    rw [hn] at hmessage
    cases hmessage with
    | other hnone => exact absurd rfl (hnone payload)
    | @message _ _ rest frames hdealt hframes =>
      have hall := hframes false
      rw [hready, Bool.or_true, if_pos rfl] at hall
      refine ⟨rest, ⟨hall ▸ hdealt.fits, hall ▸ hdealt.stream, ⟨?_⟩⟩, fun _ => Or.inr ?_⟩
      · rw [hall]
        exact hdealt.online.connection
      · refine ⟨⟨.frame, payload⟩, ?_, ?_⟩
        · rw [hall]
          exact List.mem_append_right _ List.mem_cons_self
        · simp [saysReady, hready]
  | case4 t payload t' hn hready ih =>
    have hmessage := nextMessage_deals h
    have hstate := state_nextMessage t
    rw [hn] at hmessage hstate
    cases hmessage with
    | other hnone => exact absurd rfl (hnone payload)
    | @message _ _ rest frames hdealt hframes =>
      obtain ⟨rest', hdealt', hrest⟩ := ih hdealt.online
      -- The message says nothing yet, so the frames behind it are dealt with as well.
      have hall : dealt false stream = (frames ++ [⟨.frame, payload⟩]) ++ dealt false rest := by
        rw [hframes false, Bool.eq_false_iff.2 hready, Bool.or_self,
          if_neg Bool.false_ne_true, List.append_assoc]
        rfl
      refine ⟨rest', hall ▸ hdealt.trans hdealt', fun hr => ?_⟩
      rcases hrest hr with hready' | ⟨f, hf, hsays⟩
      · exact Or.inl (hstate ▸ hready')
      · exact Or.inr ⟨f, hall ▸ List.mem_append_right _ hf, hsays⟩

/-! ## Both directions -/

/-- What happens on a link: a frame is taken, or a message is written. -/
inductive Event where
  | took (f : Frame)
  | wrote (payload : Bytes)
  deriving DecidableEq, Repr

def Event.input? : Event → Option Frame
  | took f => some f
  | wrote _ => none

def Event.output? : Event → Option Frame
  | took f => reply? f
  | wrote payload => some { opcode := .frame, payload }

/-- A link with all that the peer has sent to it and all that has happened. -/
structure Exchange where
  transport : Ipc
  arrived : Bytes := []
  /-- The peer sends no more. -/
  hungUp : Bool := false
  events : List Event := []

/-- What may happen next. -/
inductive Use where
  | connect
  | read
  | write (payload : Bytes)
  | deliver (octets : Bytes)
  | hangUp
  deriving DecidableEq, Repr

namespace Exchange

/-- Open a link that is closed. -/
def start (t : Ipc) : Exchange := { transport := t.connect.2 }

/-- Note the frames that a call takes. -/
def note (x : Exchange) (t : Ipc) (frames : List Frame) : Exchange :=
  { x with transport := t, events := x.events ++ frames.map .took }

/-- Opening a link again once it is closed would start another session. -/
def use (x : Exchange) : Use → Exchange
  | .connect =>
    match x.transport.state with
    | .closed => x
    | .handshaking => x.note x.transport.connect.2 (dealt false x.transport.toRead)
    | .ready => x.note x.transport.connect.2 []
  | .read =>
    match x.transport.state with
    | .ready => x.note x.transport.read.2 (dealt true x.transport.toRead)
    | _ => x.note x.transport.read.2 []
  | .write payload =>
    match x.transport.write payload with
    | (.ok _, t) => { x with transport := t, events := x.events ++ [.wrote payload] }
    | (.error _, t) => { x with transport := t }
  | .deliver octets =>
    if x.hungUp then x
    else
      { x with transport := { x.transport with host := x.transport.host.peerSend octets },
               arrived := x.arrived ++ octets }
  | .hangUp =>
    { x with transport := { x.transport with host := x.transport.host.peerShut }, hungUp := true }

def useAll (x : Exchange) (uses : List Use) : Exchange := uses.foldl use x

end Exchange

/-- The frames that were taken account for what has arrived, and those that were
sent for what has happened. -/
structure Flow (hello : Frame) (x : Exchange) : Prop where
  sent : x.transport.sent = Frame.written (hello :: x.events.filterMap Event.output?)
  fits : ∀ f ∈ x.events.filterMap Event.output?, f.Fits
  arrived : ∃ rest, x.arrived = Frame.written (x.events.filterMap Event.input?) ++ rest ∧
    (x.transport.state ≠ .closed → Online x.transport rest x.transport.sent x.hungUp)
  greeted : x.transport.state = .ready → ∃ f, .took f ∈ x.events ∧ saysReady f
  ordered : ∀ (i : Nat) payload, x.events[i]? = some (.wrote payload) →
    ∃ j < i, ∃ f, x.events[j]? = some (.took f) ∧ saysReady f

theorem input?_took (frames : List Frame) :
    (frames.map Event.took).filterMap Event.input? = frames := by
  rw [List.filterMap_map]
  exact List.filterMap_some

theorem output?_took (frames : List Frame) :
    (frames.map Event.took).filterMap Event.output? = frames.filterMap reply? :=
  List.filterMap_map

theorem fits_reply {f g : Frame} (hf : f.Fits) (h : reply? f = some g) : g.Fits := by
  unfold reply? at h
  split at h
  · cases h
    exact hf
  · cases h

/-- An order of events is not changed by what comes later. -/
theorem ordered_append {events later : List Event}
    (h : ∀ (i : Nat) payload, events[i]? = some (.wrote payload) →
      ∃ j < i, ∃ f, events[j]? = some (.took f) ∧ saysReady f)
    (hlater : ∀ payload, .wrote payload ∈ later → ∃ f, .took f ∈ events ∧ saysReady f) :
    ∀ (i : Nat) payload, (events ++ later)[i]? = some (.wrote payload) →
      ∃ j < i, ∃ f, (events ++ later)[j]? = some (.took f) ∧ saysReady f := by
  intro i payload hi
  rw [List.getElem?_append] at hi
  split at hi
  · rename_i hlt
    obtain ⟨j, hj, f, hf, hsays⟩ := h i payload hi
    exact ⟨j, hj, f, by rwa [List.getElem?_append_left (Nat.lt_trans hj hlt)], hsays⟩
  · rename_i hge
    obtain ⟨f, hf, hsays⟩ := hlater payload (List.mem_of_getElem? hi)
    obtain ⟨j, hj⟩ := List.mem_iff_getElem?.1 hf
    have hlt := (List.getElem?_eq_some_iff.1 hj).1
    exact ⟨j, by omega, f, by rwa [List.getElem?_append_left hlt], hsays⟩

/-- Taking frames, and then closing the link or not. -/
theorem Flow.note {hello : Frame} {x : Exchange} (h : Flow hello x) {frames : List Frame}
    {stream rest : Bytes} {t t' : Ipc}
    (hstream : x.arrived = Frame.written (x.events.filterMap Event.input?) ++ stream)
    (hdealt : Dealt frames stream x.transport.sent x.hungUp rest t)
    (hready : t.state = .ready → x.transport.state = .ready ∨ ∃ f ∈ frames, saysReady f)
    (ht : t' = t ∨ t' = t.close) : Flow hello (x.note t' frames) := by
  have hsent : t'.sent = x.transport.sent ++ Frame.written (frames.filterMap reply?) := by
    rcases ht with rfl | rfl
    · exact hdealt.online.sent_eq
    · rw [sent_close, hdealt.online.sent_eq]
  -- A link that is closed has sent all the same, but is not read from again.
  have hstate : t'.state ≠ .closed → t' = t := by
    rcases ht with rfl | rfl
    · exact fun _ => rfl
    · exact fun hne => absurd rfl hne
  refine { sent := ?sent, fits := ?fits, arrived := ⟨rest, ?arrived, ?online⟩,
           greeted := ?greeted, ordered := ?ordered }
  case sent =>
    rw [Exchange.note, hsent, h.sent, List.filterMap_append, output?_took, ← Frame.written_append]
    rfl
  case fits =>
    rw [Exchange.note, List.filterMap_append, output?_took]
    intro f hf
    rcases List.mem_append.1 hf with hf | hf
    · exact h.fits f hf
    · obtain ⟨g, hg, hreply⟩ := List.mem_filterMap.1 hf
      exact fits_reply (hdealt.fits g hg) hreply
  case arrived =>
    rw [Exchange.note, List.filterMap_append, input?_took, Frame.written_append, List.append_assoc,
      ← hdealt.stream, hstream]
  case online =>
    intro hne
    rw [Exchange.note, hsent, hstate hne]
    exact hdealt.online
  case greeted =>
    intro hr
    have hne : t'.state ≠ .closed := by simp [show t'.state = .ready from hr]
    rw [Exchange.note, hstate hne] at hr
    rcases hready hr with hready | ⟨f, hf, hsays⟩
    · obtain ⟨f, hf, hsays⟩ := h.greeted hready
      exact ⟨f, List.mem_append_left _ hf, hsays⟩
    · exact ⟨f, List.mem_append_right _ (List.mem_map_of_mem hf), hsays⟩
  case ordered =>
    refine ordered_append h.ordered fun payload hw => ?_
    obtain ⟨f, -, hf⟩ := List.mem_map.1 hw
    cases hf

theorem orClose_eq {α : Type} (result : Except TransportError α × Ipc) :
    (orClose result).2 = result.2 ∨ (orClose result).2 = result.2.close := by
  obtain ⟨e | a, t⟩ := result
  · exact Or.inr rfl
  · exact Or.inl rfl

theorem Online.isOpen {t : Ipc} {stream sent : Bytes} {ended : Bool}
    (h : Online t stream sent ended) (hs : t.state = .ready) : t.isOpen = true := by
  obtain ⟨c, hc, -⟩ := h
  simp [Ipc.isOpen, hs, hasStream, hc]

/-- Writing on a link that is up sends the message if it fits, and otherwise
closes the link. -/
theorem write_spec {t : Ipc} {stream : Bytes} {ended : Bool}
    (h : Online t stream t.sent ended) (hs : t.state = .ready) (payload : Bytes) :
    (payload.length ≤ Frame.maxPayload ∧ ∃ t', t.write payload = (.ok (), t') ∧
      t'.state = .ready ∧
      Online t' stream (t.sent ++ Frame.octets { opcode := .frame, payload }) ended) ∨
    (Frame.maxPayload < payload.length ∧
      t.write payload = (.error (Frame.tooLarge payload.length), t.close)) := by
  rw [write, if_pos (h.isOpen hs)]
  rcases Nat.lt_or_ge Frame.maxPayload payload.length with hlarge | hle
  · refine Or.inr ⟨hlarge, ?_⟩
    rw [writeFrame, Frame.encode?, if_neg (Nat.not_le.2 hlarge)]
    rfl
  · obtain ⟨t', hw, hstate, honline⟩ := writeFrame_spec (f := ⟨.frame, payload⟩) h hle
    rw [hw]
    exact Or.inl ⟨hle, t', rfl, hstate.trans hs, honline⟩

theorem flow_write {hello : Frame} {x : Exchange} (h : Flow hello x) (payload : Bytes) :
    Flow hello (x.use (.write payload)) := by
  obtain ⟨rest, harrived, honline⟩ := h.arrived
  by_cases hs : x.transport.state = .ready
  · rcases write_spec (honline (by simp [hs])) hs payload with
      ⟨hle, t', hw, hstate, honline'⟩ | ⟨-, hw⟩
    · simp only [Exchange.use, hw]
      have hsent := honline'.sent_eq
      have hnothing : [Event.wrote payload].filterMap Event.input? = [] := rfl
      refine { sent := ?sent, fits := ?fits, arrived := ⟨rest, ?arrived, fun _ => ?online⟩,
               greeted := fun _ => ?greeted, ordered := ?ordered }
      case sent =>
        rw [hsent, h.sent, List.filterMap_append, ← Frame.written_singleton, ← Frame.written_append]
        rfl
      case fits =>
        rw [List.filterMap_append]
        intro f hf
        rcases List.mem_append.1 hf with hf | hf
        · exact h.fits f hf
        · cases List.mem_singleton.1 hf
          exact hle
      case arrived => rw [List.filterMap_append, hnothing, List.append_nil, harrived]
      case online => rwa [hsent]
      case greeted =>
        obtain ⟨f, hf, hsays⟩ := h.greeted hs
        exact ⟨f, List.mem_append_left _ hf, hsays⟩
      case ordered => exact ordered_append h.ordered fun _ _ => h.greeted hs
    · simp only [Exchange.use, hw]
      refine ⟨(sent_close _).trans h.sent, h.fits, ⟨rest, harrived, fun hne => absurd rfl hne⟩, ?_,
        h.ordered⟩
      intro hr
      cases hr
  · simp only [Exchange.use, write_of_not_ready hs]
    exact h

theorem Exchange.note_nil (x : Exchange) : x.note x.transport [] = x := by
  simp [Exchange.note]

theorem flow_connect {hello : Frame} {x : Exchange} (h : Flow hello x) :
    Flow hello (x.use .connect) := by
  obtain ⟨rest, harrived, honline⟩ := h.arrived
  cases hs : x.transport.state with
  | closed =>
    simp only [Exchange.use, hs]
    exact h
  | handshaking =>
    have honline := honline (by simp [hs])
    obtain ⟨rest', hdealt, hready⟩ := poll_deals honline
    have hconnect : x.transport.connect = orClose x.transport.poll := by simp only [connect, hs]
    simp only [Exchange.use, hs, honline.toRead_eq]
    exact h.note harrived hdealt hready (by rw [hconnect]; exact orClose_eq _)
  | ready =>
    have hconnect : x.transport.connect = (.ok .connected, x.transport) := by
      simp only [connect, hs]
    simp only [Exchange.use, hs, hconnect, Exchange.note_nil]
    exact h

theorem flow_read {hello : Frame} {x : Exchange} (h : Flow hello x) : Flow hello (x.use .read) := by
  have hidle : x.transport.state ≠ .ready → x.transport.read = (.ok none, x.transport) := by
    intro hs
    unfold read
    split
    · rename_i hr
      exact absurd hr hs
    · rfl
  obtain ⟨rest, harrived, honline⟩ := h.arrived
  cases hs : x.transport.state with
  | ready =>
    have honline := honline (by simp [hs])
    have hread : x.transport.read = orClose x.transport.nextMessage := by simp only [read, hs]
    have hready : x.transport.nextMessage.2.state = .ready →
        x.transport.state = .ready ∨ ∃ f ∈ dealt true rest, saysReady f := fun _ => Or.inl hs
    have hdealt : ∃ rest', Dealt (dealt true rest) rest x.transport.sent x.hungUp rest'
        x.transport.nextMessage.2 := by
      have hmessage := nextMessage_deals honline
      revert hmessage
      cases x.transport.nextMessage with
      | mk result t =>
        intro hmessage
        cases hmessage with
        | message hdealt hframes =>
          have hall := hframes true
          rw [Bool.true_or, if_pos rfl] at hall
          exact ⟨_, hall ▸ hdealt⟩
        | other _ hdealt hframes => exact ⟨_, hframes true ▸ hdealt⟩
    obtain ⟨rest', hdealt⟩ := hdealt
    simp only [Exchange.use, hs, honline.toRead_eq]
    exact h.note harrived hdealt hready (by rw [hread]; exact orClose_eq _)
  | closed =>
    simp only [Exchange.use, hs, hidle (by simp [hs]), Exchange.note_nil]
    exact h
  | handshaking =>
    simp only [Exchange.use, hs, hidle (by simp [hs]), Exchange.note_nil]
    exact h

theorem flow_use {hello : Frame} {x : Exchange} (h : Flow hello x) (u : Use) :
    Flow hello (x.use u) := by
  cases u with
  | connect => exact flow_connect h
  | read => exact flow_read h
  | write payload => exact flow_write h payload
  | deliver octets =>
    obtain ⟨rest, harrived, honline⟩ := h.arrived
    rw [Exchange.use]
    split
    · exact h
    · rename_i hup
      rw [Bool.eq_false_iff.2 hup] at honline
      refine ⟨(sent_peerSend ..).trans h.sent, h.fits, ⟨rest ++ octets, ?_, fun hne => ?_⟩,
        h.greeted, h.ordered⟩
      · rw [harrived, List.append_assoc]
      · rw [sent_peerSend, Bool.eq_false_iff.2 hup]
        exact (honline hne).peerSend octets
  | hangUp =>
    obtain ⟨rest, harrived, honline⟩ := h.arrived
    refine ⟨(sent_peerShut _).trans h.sent, h.fits, ⟨rest, harrived, fun hne => ?_⟩, h.greeted,
      h.ordered⟩
    rw [Exchange.use, sent_peerShut]
    exact (honline hne).peerShut

theorem flow_useAll {hello : Frame} {x : Exchange} (h : Flow hello x) (uses : List Use) :
    Flow hello (x.useAll uses) := by
  induction uses generalizing x with
  | nil => exact h
  | cons u uses ih => exact ih (flow_use h u)

/-! ## The handshake -/

theorem length_greeting (applicationId : String) :
    (greeting applicationId).length = (Json.renderText applicationId).length + 20 := by
  have hv : (Json.renderText "v").length = 3 := rfl
  have hid : (Json.renderText "client_id").length = 11 := rfl
  have hone : (Json.decimal 1).length = 1 := by decide +kernel
  rw [greeting, Json.render_object, Json.flatten_memberPieces]
  simp only [Json.joined, Json.renderMember, ↓reduceIte, Bool.false_eq_true, List.nil_append,
    Json.render_text, Json.render_number, List.length_append, List.length_cons, List.length_nil, hv,
    hid, hone]
  omega

/-- The handshake of an application id that a client accepts. -/
theorem fits_greeting {applicationId : String}
    (h : (Utf8.ofString applicationId).length ≤ Config.maxApplicationIdSize) :
    Frame.Fits ⟨.handshake, greeting applicationId⟩ := by
  have htext := Json.length_renderText_le applicationId
  have hlength := length_greeting applicationId
  simp only [Frame.Fits, Frame.maxPayload, Config.maxApplicationIdSize] at *
  omega

theorem begin_of_reach {t : Ipc} {host : Host} (hreach : reach t.host none t.candidates = .ok host)
    (hfits : Frame.Fits ⟨.handshake, greeting t.applicationId⟩) : ∃ t', t.begin = (.ok (), t') := by
  obtain ⟨t', hw, -⟩ :=
    writeFrame_spec (f := ⟨.handshake, greeting t.applicationId⟩) (online_of_reach hreach) hfits
  exact ⟨{ t' with state := .handshaking }, by simp only [begin, hreach, hw]⟩

theorem flow_start {t : Ipc} {host : Host} (h : t.state = .closed) (hr : t.received = [])
    (hreach : reach t.host none t.candidates = .ok host)
    (hfits : Frame.Fits ⟨.handshake, greeting t.applicationId⟩) :
    Flow ⟨.handshake, greeting t.applicationId⟩ (Exchange.start t) := by
  obtain ⟨t', hb⟩ := begin_of_reach hreach hfits
  obtain ⟨honline, hstate⟩ := begin_spec hb
  rw [hr] at honline
  have hsent : t'.sent = Frame.octets ⟨.handshake, greeting t.applicationId⟩ := honline.sent_eq
  rw [← honline.sent_eq] at honline
  have hbegun : Flow ⟨.handshake, greeting t.applicationId⟩ { transport := t' } := by
    refine ⟨?_, nofun, ⟨[], rfl, fun _ => honline⟩, fun hs => ?_, nofun⟩
    · rw [hsent]
      exact (Frame.written_singleton _).symm
    · rw [hstate] at hs
      cases hs
  have hnothing : dealt false [] = [] := @dealt_of_found _ none rfl false
  obtain ⟨rest, hdealt, hready⟩ := poll_deals honline
  rw [hnothing] at hdealt hready
  have hstart := hbegun.note rfl hdealt hready (orClose_eq t'.poll)
  rw [Exchange.start, connect_of_closed h, hb]
  exact hstart

/-- **The client sends whole frames and nothing else.** What it sends on a
connection splits into the handshake, one frame for each message that it was
given to write, and one reply for each ping that it has taken, with the same
payload, in the order of the calls. Every one of them fits into a frame, no
message goes out before the peer was ready, and a message that is too large
sends nothing and closes the link. -/
theorem session_sends_frames {t : Ipc} {host : Host} (h : t.state = .closed)
    (hr : t.received = [])
    (hid : (Utf8.ofString t.applicationId).length ≤ Config.maxApplicationIdSize)
    (hreach : reach t.host none t.candidates = .ok host) (uses : List Use) :
    let x := (Exchange.start t).useAll uses
    let hello : Frame := { opcode := .handshake, payload := (Json.Value.object
      [("v", .number 1), ("client_id", .text t.applicationId)]).render }
    let frames := hello :: x.events.filterMap Event.output?
    x.transport.sent = Frame.written frames ∧ (∀ f ∈ frames, f.Fits) ∧
    Frame.split x.transport.sent = (frames, []) ∧
    (∃ rest, x.arrived = Frame.written (x.events.filterMap Event.input?) ++ rest ∧
      (x.transport.state ≠ .closed → x.transport.toRead = rest)) ∧
    (∀ (i : Nat) payload, x.events[i]? = some (.wrote payload) →
      ∃ j < i, ∃ f, x.events[j]? = some (.took f) ∧ saysReady f) ∧
    (x.transport.state = .ready → ∀ payload,
      (payload.length ≤ Frame.maxPayload → ∃ t', x.transport.write payload = (.ok (), t')) ∧
      (Frame.maxPayload < payload.length →
        x.transport.write payload = (.error (Frame.tooLarge payload.length), x.transport.close) ∧
        x.transport.close.sent = x.transport.sent)) := by
  intro x hello frames
  have hhello : hello.Fits := fits_greeting hid
  have hflow : Flow hello x := flow_useAll (flow_start h hr hreach hhello) uses
  have hfits : ∀ f ∈ frames, f.Fits := List.forall_mem_cons.2 ⟨hhello, hflow.fits⟩
  obtain ⟨rest, harrived, honline⟩ := hflow.arrived
  refine ⟨hflow.sent, hfits, ?_, ⟨rest, harrived, fun hne => (honline hne).toRead_eq⟩,
    hflow.ordered, fun hs payload => ?_⟩
  · rw [hflow.sent, ← List.append_nil (Frame.written _)]
    exact Frame.split_written hfits (.header (by decide))
  · have hwrite := write_spec (honline (by simp [hs])) hs payload
    refine ⟨fun hle => ?_, fun hlarge => ?_⟩
    · rcases hwrite with ⟨-, t', hw, -⟩ | ⟨hlarge, -⟩
      · exact ⟨t', hw⟩
      · exact absurd hle (Nat.not_le.2 hlarge)
    · rcases hwrite with ⟨hle, -⟩ | ⟨-, hw⟩
      · exact absurd hle (Nat.not_le.2 hlarge)
      · exact ⟨hw, sent_close _⟩

/-- A message that is given too early, and pings before and after the next one. -/
theorem session_sends_frames_of_early_message :
    let ready := Utf8.ofString "\x7b\"cmd\":\"DISPATCH\",\"evt\":\"READY\"\x7d"
    let uses := [.write [6], .deliver (Frame.written [⟨.ping, [5]⟩, ⟨.frame, ready⟩]), .connect,
      .write [7], .deliver (Frame.written [⟨.ping, [8]⟩]), .read]
    listening.state = .closed ∧ listening.received = [] ∧
      (Utf8.ofString listening.applicationId).length ≤ Config.maxApplicationIdSize ∧
      (∃ host, reach listening.host none listening.candidates = .ok host) ∧
      ((Exchange.start listening).useAll uses).transport.sent = Frame.written
        [⟨.handshake, greeting "1"⟩, ⟨.pong, [5]⟩, ⟨.frame, [7]⟩, ⟨.pong, [8]⟩] := by
  intro ready uses
  have hid : (Utf8.ofString listening.applicationId).length ≤ Config.maxApplicationIdSize := by
    decide
  have hevents : ((Exchange.start listening).useAll uses).events =
      [.took ⟨.ping, [5]⟩, .took ⟨.frame, ready⟩, .wrote [7], .took ⟨.ping, [8]⟩] := by
    rw [Exchange.start, connect_of_closed rfl, begin_listening]
    decide +kernel
  refine ⟨rfl, rfl, hid, ⟨_, reach_listening⟩, ?_⟩
  rw [(session_sends_frames rfl rfl hid reach_listening uses).1, hevents]
  rfl

end PresenceLink.Ipc
