import PresenceLink.Proofs.Ipc.Stream

/-!
# One call on a connection

A call reads as many octets as are there, in any number of pieces, and says
the part of `reading` that they decide. What it leaves over says the rest.

* `Online`: the octets that are to be dealt with and those that were sent;
* `nextFrame_spec`, `answer_spec`: one frame, and the reply to it;
* `nextMessage_spec`, `poll_spec`: frames up to a message, and messages up to
  the one that says that the peer is ready.
-/

namespace PresenceLink.Ipc

/-- A client with a connection that it has not closed and that takes all it
writes: the octets that are not yet dealt with, wherever they are, those that
were sent, and whether more can come. -/
structure Online (t : Ipc) (stream sent : Bytes) (ended : Bool) : Prop where
  connection : ∃ c, t.host.stream? = some c ∧ c.deaf = false ∧ c.ended = ended ∧
    c.outgoing = sent ∧ t.received ++ c.incoming = stream

/-- An empty reply. -/
theorem Online.silent {t : Ipc} {stream sent : Bytes} {ended : Bool}
    (h : Online t stream sent ended) : Online t stream (sent ++ []) ended := by
  rwa [List.append_nil]

/-- What taking a frame comes to, in a given state. -/
inductive FrameStep (state : IpcState) (stream sent : Bytes) (ended : Bool) :
    Except TransportError (Option Opcode) × Ipc → Prop where
  | frame {t : Ipc} {o : Opcode} {rest : Bytes}
      (htake : Frame.take stream = .frame { opcode := o, payload := t.frame } rest)
      (hstate : t.state = state) (honline : Online t rest sent ended) :
      FrameStep state stream sent ended (.ok (some o), t)
  | pending {t : Ipc} (htake : Frame.take stream = .partly) (hended : ended = false)
      (hstate : t.state = state) (honline : Online t stream sent ended) :
      FrameStep state stream sent ended (.ok none, t)
  | corrupt {t : Ipc} {e : TransportError} (htake : Frame.take stream = .corrupt e)
      (honline : Online t stream sent ended) : FrameStep state stream sent ended (.error e, t)
  | finished {t : Ipc} (htake : Frame.take stream = .partly) (hended : ended = true)
      (honline : Online t stream sent ended) :
      FrameStep state stream sent ended (.error .pipeClosed, t)

/-- Reading some octets leaves the stream as it is. -/
theorem Online.receive {t : Ipc} {stream sent bytes : Bytes} {ended : Bool} {host : Host}
    (h : Online t stream sent ended) (hr : t.host.receive readChunk = (.octets bytes, host)) :
    Online { t with host, received := t.received ++ bytes } stream sent ended := by
  obtain ⟨c, hc, hd, he, ho, hs⟩ := h
  unfold Host.receive at hr
  rw [hc] at hr
  simp only at hr
  split at hr
  · split at hr <;> cases hr
  · simp only [Prod.mk.injEq, Received.octets.injEq] at hr
    obtain ⟨rfl, rfl⟩ := hr
    have hh := (Host.stream?_eq_some_iff.1 hc).2
    refine ⟨{ c with incoming := c.incoming.drop readChunk }, Host.stream?_of_connection rfl hh,
      hd, he, ho, ?_⟩
    rw [List.append_assoc, List.take_append_drop, hs]

/-- Where nothing can be read, all octets have been received. -/
theorem Online.of_receive {t : Ipc} {stream sent : Bytes} {ended : Bool} {r : Received}
    {host : Host} (h : Online t stream sent ended) (hr : t.host.receive readChunk = (r, host))
    (hn : ∀ bytes, r ≠ .octets bytes) :
    r = (if ended then .ended else .nothingYet) ∧ t.received = stream := by
  obtain ⟨c, hc, -, rfl, -, hs⟩ := h
  unfold Host.receive at hr
  rw [hc] at hr
  simp only at hr
  split at hr
  · rename_i hempty
    rw [List.isEmpty_iff] at hempty
    rw [hempty, List.append_nil] at hs
    exact ⟨(congrArg Prod.fst hr).symm, hs⟩
  · exact absurd (congrArg Prod.fst hr).symm (hn _)

theorem nextFrame_spec {t : Ipc} {stream sent : Bytes} {ended : Bool}
    (h : Online t stream sent ended) : FrameStep t.state stream sent ended t.nextFrame := by
  fun_induction nextFrame t with
  | case1 t f rest hf =>
    obtain ⟨c, hc, hd, he, ho, rfl⟩ := h
    exact .frame (Frame.take_append_frame hf c.incoming) rfl ⟨c, hc, hd, he, ho, rfl⟩
  | case2 t e hf =>
    obtain ⟨c, hc, hd, he, ho, rfl⟩ := h
    exact .corrupt (Frame.take_append_corrupt hf c.incoming) ⟨c, hc, hd, he, ho, rfl⟩
  | case3 t hf bytes host hr ih => exact ih (h.receive hr)
  | case4 t hf host hr =>
    obtain ⟨hr', hs⟩ := h.of_receive hr (by simp)
    cases ended with
    | true => cases hr'
    | false => exact .pending (hs ▸ hf) rfl rfl h
  | case5 t hf host hr =>
    obtain ⟨hr', hs⟩ := h.of_receive hr (by simp)
    cases ended with
    | true => exact .finished (hs ▸ hf) rfl h
    | false => cases hr'

/-! ## Replies -/

theorem writeFrame_spec {t : Ipc} {stream sent : Bytes} {ended : Bool} {f : Frame}
    (h : Online t stream sent ended) (hf : f.payload.length ≤ Frame.maxPayload) :
    ∃ t', t.writeFrame f = (.ok (), t') ∧ t'.state = t.state ∧
      Online t' stream (sent ++ (Frame.header f.opcode.code f.payload.length ++ f.payload))
        ended := by
  obtain ⟨c, hc, hd, he, ho, hs⟩ := h
  have hh := (Host.stream?_eq_some_iff.1 hc).2
  rw [writeFrame, Frame.encode?, if_pos hf]
  simp only [Host.send, hc, hd, Bool.false_eq_true, ↓reduceIte]
  refine ⟨_, rfl, rfl, ?_⟩
  exact ⟨_, Host.stream?_of_connection rfl hh, rfl, he, by rw [ho], hs⟩

/-- What a frame without a message says, and what is said after it. -/
theorem answer_spec {t : Ipc} {o : Opcode} {rest sent stream : Bytes} {ended : Bool}
    (h : Online t rest sent ended)
    (htake : Frame.take stream = .frame { opcode := o, payload := t.frame } rest)
    (hne : o ≠ .frame) :
    match t.answer o with
    | (.ok _, t') => ∃ reply, t'.state = t.state ∧ Online t' rest (sent ++ reply) ended ∧
        ∀ ended' opened more, reading ended' opened (stream ++ more) =
          (Transcript.ofSent reply).followedBy (reading ended' opened (rest ++ more))
    | (.error e, t') => Online t' rest sent ended ∧
        ∀ ended' opened more, reading ended' opened (stream ++ more) = .ofAnswer (.failed e) := by
  have hreading := fun ended' opened more =>
    reading_of_frame (Frame.take_append_frame htake more) ended' opened
  cases o with
  | frame => exact absurd rfl hne
  | ping =>
    have hle : t.frame.length ≤ Frame.maxPayload := Frame.payload_le_of_take htake
    obtain ⟨t', hw, hstate, honline⟩ :=
      writeFrame_spec (f := { opcode := .pong, payload := t.frame }) h hle
    simp only [answer, hw]
    exact ⟨pong t.frame, hstate, honline, hreading⟩
  | pong =>
    refine ⟨[], rfl, h.silent, ?_⟩
    intro ended' opened more
    rw [hreading]
    exact (Transcript.ofSent_nil_followedBy _).symm
  | close => exact ⟨h, hreading⟩
  | handshake => exact ⟨h, hreading⟩

/-! ## Messages -/

/-- What looking for a message comes to, in a given state. Each case tells what
the stream says, in terms of what is left of it. -/
inductive MessageStep (state : IpcState) (stream sent : Bytes) (ended : Bool) :
    Except TransportError (Option Bytes) × Ipc → Prop where
  | message {t : Ipc} {payload rest reply : Bytes} (hlt : rest.length < stream.length)
      (hstate : t.state = state) (honline : Online t rest (sent ++ reply) ended)
      (hreading : ∀ ended' opened more, reading ended' opened (stream ++ more) =
        (Transcript.ofSent reply).followedBy (delivering ended' opened payload (rest ++ more))) :
      MessageStep state stream sent ended (.ok (some payload), t)
  | pending {t : Ipc} {rest reply : Bytes} (hle : rest.length ≤ stream.length)
      (htake : Frame.take rest = .partly) (hended : ended = false) (hstate : t.state = state)
      (honline : Online t rest (sent ++ reply) ended)
      (hreading : ∀ ended' opened more, reading ended' opened (stream ++ more) =
        (Transcript.ofSent reply).followedBy (reading ended' opened (rest ++ more))) :
      MessageStep state stream sent ended (.ok none, t)
  | failed {t : Ipc} {rest reply : Bytes} {e : TransportError}
      (honline : Online t rest (sent ++ reply) ended)
      (hreading : ∀ ended' opened more, (ended = true → ended' = true ∧ more = []) →
        reading ended' opened (stream ++ more) =
          (Transcript.ofSent reply).followedBy (.ofAnswer (.failed e))) :
      MessageStep state stream sent ended (.error e, t)

/-- A reply and then more. -/
theorem ofSent_append (first second : Bytes) (after : Transcript) :
    (Transcript.ofSent (first ++ second)).followedBy after =
      (Transcript.ofSent first).followedBy ((Transcript.ofSent second).followedBy after) := by
  simp [Transcript.ofSent, Transcript.followedBy]

theorem MessageStep.after {state : IpcState} {stream sent rest reply : Bytes} {ended : Bool}
    {result : Except TransportError (Option Bytes) × Ipc}
    (h : MessageStep state rest (sent ++ reply) ended result) (hlt : rest.length < stream.length)
    (hreading : ∀ ended' opened more, reading ended' opened (stream ++ more) =
      (Transcript.ofSent reply).followedBy (reading ended' opened (rest ++ more))) :
    MessageStep state stream sent ended result := by
  cases h with
  | message hlt' hstate honline hrest =>
    refine .message (Nat.lt_trans hlt' hlt) hstate (List.append_assoc .. ▸ honline) ?_
    intro ended' opened more
    rw [hreading, hrest, ofSent_append]
  | pending hle htake hended hstate honline hrest =>
    refine .pending (by omega) htake hended hstate (List.append_assoc .. ▸ honline) ?_
    intro ended' opened more
    rw [hreading, hrest, ofSent_append]
  | failed honline hrest =>
    refine .failed (List.append_assoc .. ▸ honline) ?_
    intro ended' opened more hmore
    rw [hreading, hrest ended' opened more hmore, ofSent_append]

theorem nextMessage_spec {t : Ipc} {stream sent : Bytes} {ended : Bool}
    (h : Online t stream sent ended) :
    MessageStep t.state stream sent ended t.nextMessage := by
  fun_induction nextMessage t generalizing stream sent with
  | case1 t e t' hn =>
    have hstep := nextFrame_spec h
    rw [hn] at hstep
    cases hstep with
    | corrupt htake honline =>
      refine .failed honline.silent ?_
      intro ended' opened more _
      rw [reading_of_corrupt (Frame.take_append_corrupt htake more)]
      exact (Transcript.ofSent_nil_followedBy _).symm
    | finished htake hended honline =>
      refine .failed honline.silent ?_
      intro ended' opened more hmore
      obtain ⟨rfl, rfl⟩ := hmore hended
      rw [List.append_nil, reading_of_partly htake]
      exact (Transcript.ofSent_nil_followedBy _).symm
  | case2 t t' hn =>
    have hstep := nextFrame_spec h
    rw [hn] at hstep
    cases hstep with
    | pending htake hended hstate honline =>
      refine .pending (Nat.le_refl _) htake hended hstate honline.silent ?_
      intro ended' opened more
      exact (Transcript.ofSent_nil_followedBy _).symm
  | case3 t t' hn =>
    have hstep := nextFrame_spec h
    rw [hn] at hstep
    cases hstep with
    | frame htake hstate honline =>
      have hlt := Frame.take_frame_shorter htake
      refine .message ?_ hstate honline.silent ?_
      · rw [Frame.headerSize] at hlt
        omega
      · intro ended' opened more
        rw [reading_of_frame (Frame.take_append_frame htake more)]
        exact (Transcript.ofSent_nil_followedBy _).symm
  | case4 t o t' ho hn e t'' ha =>
    have hstep := nextFrame_spec h
    rw [hn] at hstep
    cases hstep with
    | frame htake hstate honline =>
      have hanswer := answer_spec honline htake ho
      rw [ha] at hanswer
      obtain ⟨honline', hreading⟩ := hanswer
      refine .failed honline'.silent ?_
      intro ended' opened more _
      rw [hreading]
      exact (Transcript.ofSent_nil_followedBy _).symm
  | case5 t o t' ho hn r t'' ha ih =>
    have hstep := nextFrame_spec h
    rw [hn] at hstep
    cases hstep with
    | frame htake hstate honline =>
      have hlt := Frame.take_frame_shorter htake
      have hanswer := answer_spec honline htake ho
      rw [ha] at hanswer
      obtain ⟨reply, hstate', honline', hreading⟩ := hanswer
      have hrest := ih honline'
      rw [hstate', hstate] at hrest
      refine hrest.after ?_ hreading
      rw [Frame.headerSize] at hlt
      omega

/-! ## Calls -/

/-- What a call comes to, for a caller who has, or has not yet, been told that
the link is up. -/
inductive CallStep (opened : Bool) (stream sent : Bytes) (ended : Bool) :
    Except TransportError (Option Answer) × Ipc → Prop where
  | answered {t : Ipc} {a : Answer} {rest reply : Bytes} (hlt : rest.length < stream.length)
      (hstate : t.state = .ready) (honline : Online t rest (sent ++ reply) ended)
      (hreading : ∀ ended' more, reading ended' opened (stream ++ more) =
        (Transcript.ofSent reply).followedBy
          ((Transcript.ofAnswer a).followedBy (reading ended' true (rest ++ more)))) :
      CallStep opened stream sent ended (.ok (some a), t)
  | pending {t : Ipc} {rest reply : Bytes} (hle : rest.length ≤ stream.length)
      (htake : Frame.take rest = .partly) (hended : ended = false)
      (hstate : t.state = if opened then .ready else .handshaking)
      (honline : Online t rest (sent ++ reply) ended)
      (hreading : ∀ ended' more, reading ended' opened (stream ++ more) =
        (Transcript.ofSent reply).followedBy (reading ended' opened (rest ++ more))) :
      CallStep opened stream sent ended (.ok none, t)
  | failed {t : Ipc} {rest reply : Bytes} {e : TransportError}
      (honline : Online t rest (sent ++ reply) ended)
      (hreading : ∀ ended' more, (ended = true → ended' = true ∧ more = []) →
        reading ended' opened (stream ++ more) =
          (Transcript.ofSent reply).followedBy (.ofAnswer (.failed e))) :
      CallStep opened stream sent ended (.error e, t.close)

/-- What opening and reading have in common: the answer, if there is one. -/
def polled : Except TransportError OpenStatus × Ipc → Except TransportError (Option Answer) × Ipc
  | (.ok .connected, t) => (.ok (some .connected), t)
  | (.ok .pending, t) => (.ok none, t)
  | (.error e, t) => (.error e, t)

def taken : Except TransportError (Option Bytes) × Ipc → Except TransportError (Option Answer) × Ipc
  | (.ok payload, t) => (.ok (payload.map .payload), t)
  | (.error e, t) => (.error e, t)

theorem CallStep.after {stream sent rest reply : Bytes} {ended : Bool}
    {result : Except TransportError (Option Answer) × Ipc}
    (h : CallStep false rest (sent ++ reply) ended result) (hlt : rest.length < stream.length)
    (hreading : ∀ ended' more, reading ended' false (stream ++ more) =
      (Transcript.ofSent reply).followedBy (reading ended' false (rest ++ more))) :
    CallStep false stream sent ended result := by
  cases h with
  | answered hlt' hstate honline hrest =>
    refine .answered (Nat.lt_trans hlt' hlt) hstate (List.append_assoc .. ▸ honline) ?_
    intro ended' more
    rw [hreading, hrest, ofSent_append]
  | pending hle htake hended hstate honline hrest =>
    refine .pending (by omega) htake hended hstate (List.append_assoc .. ▸ honline) ?_
    intro ended' more
    rw [hreading, hrest, ofSent_append]
  | failed honline hrest =>
    refine .failed (List.append_assoc .. ▸ honline) ?_
    intro ended' more hmore
    rw [hreading, hrest ended' more hmore, ofSent_append]

theorem poll_spec {t : Ipc} {stream sent : Bytes} {ended : Bool}
    (h : Online t stream sent ended) (hs : t.state = .handshaking) :
    CallStep false stream sent ended (polled (orClose t.poll)) := by
  fun_induction poll t generalizing stream sent with
  | case1 t e t' hn =>
    have hstep := nextMessage_spec h
    rw [hn] at hstep
    cases hstep with
    | failed honline hreading => exact .failed honline fun ended' => hreading ended' false
  | case2 t t' hn =>
    have hstep := nextMessage_spec h
    rw [hn] at hstep
    cases hstep with
    | pending hle htake hended hstate honline hreading =>
      exact .pending hle htake hended (hstate.trans hs) honline
        fun ended' => hreading ended' false
  | case3 t payload t' hn hready =>
    have hstep := nextMessage_spec h
    rw [hn] at hstep
    cases hstep with
    | message hlt hstate honline hreading =>
      refine .answered hlt rfl ⟨honline.connection⟩ ?_
      intro ended' more
      rw [hreading ended' false more, delivering, if_neg Bool.false_ne_true, if_pos hready]
  | case4 t payload t' hn hready ih =>
    have hstep := nextMessage_spec h
    rw [hn] at hstep
    cases hstep with
    | message hlt hstate honline hreading =>
      refine (ih honline (hstate.trans hs)).after hlt ?_
      intro ended' more
      rw [hreading ended' false more, delivering, if_neg Bool.false_ne_true, if_neg hready]

theorem read_spec {t : Ipc} {stream sent : Bytes} {ended : Bool}
    (h : Online t stream sent ended) (hs : t.state = .ready) :
    CallStep true stream sent ended (taken t.read) := by
  have hstep := nextMessage_spec h
  rw [read, hs]
  simp only
  cases hn : t.nextMessage with
  | mk result t' =>
    rw [hn] at hstep
    cases hstep with
    | message hlt hstate honline hreading =>
      exact .answered hlt (hstate.trans hs) honline fun ended' => hreading ended' true
    | pending hle htake hended hstate honline hreading =>
      exact .pending hle htake hended (hstate.trans hs) honline
        fun ended' => hreading ended' true
    | failed honline hreading => exact .failed honline fun ended' => hreading ended' true

end PresenceLink.Ipc
