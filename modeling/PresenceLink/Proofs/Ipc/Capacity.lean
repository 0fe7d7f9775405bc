import PresenceLink.Proofs.Ipc.Buffered
import PresenceLink.Proofs.Ipc.Lifecycle

/-!
# How much a link holds

Octets that have been received wait until their frame is complete. A header that
announces too much is refused before its payload is waited for, and more octets
are asked for only while no frame is complete. So a peer cannot make a link
hold more than one frame and one piece, whatever it sends and in whatever pieces
that comes.

* `incomplete_of_partly`: what is held when more is asked for;
* `watchStep`, `result_watchStep`: a call with the moments in it at which more is
  asked for or what is held changes, and that it is that call;
* `bounded_receiving`, `bounded_taking`: from one moment to the next;
* `keeps_watchFrame`, `keeps_watchMessage`, `keeps_watchPoll`: from the start of a
  loop to its end;
* `Underway`, `link_holds_one_frame`: all moments of any calls.
-/

namespace PresenceLink

namespace Ipc

/-- The room for octets that have been received: for a frame of the largest size
and one more piece. -/
def capacity : Nat := Frame.headerSize + Frame.maxPayload + readChunk

/-- A link with no more than it has room for. -/
structure Bounded (t : Ipc) : Prop where
  received : t.received.length < capacity
  frame : t.frame.length ≤ Frame.maxPayload

/-- Less than a frame of the largest size, and no whole frame of any size. -/
structure Incomplete (received : Bytes) : Prop where
  short : received.length < Frame.headerSize + Frame.maxPayload
  partly : ∀ (f : Frame) octets, f.encode? = some octets → ¬octets <+: received

theorem incomplete_of_partly {received : Bytes} (h : Frame.take received = .partly) :
    Incomplete received where
  short := by
    have hremainder : Frame.Remainder received none := Frame.remainder_of_take h
    cases hremainder with
    | header hshort => exact Nat.lt_add_right _ hshort
    | @payload o length more hl hshort =>
      -- The header has passed, so what it announces is not too large.
      have hheader : (Frame.header o.code length).length = Frame.headerSize := rfl
      rw [List.length_append, hheader]
      omega
  partly f octets hencode := by
    rintro ⟨rest, rfl⟩
    rw [Frame.take_encode hencode] at h
    cases h

theorem length_receive {h h' : Host} {most : Nat} {octets : Bytes}
    (hr : h.receive most = (.octets octets, h')) : octets.length ≤ most := by
  unfold Host.receive at hr
  split at hr
  · cases hr
  · split at hr
    · split at hr <;> cases hr
    · cases hr
      exact List.length_take_le ..

/-! ## Moments -/

/-- A moment in a call, with the link as it is then. -/
inductive Moment where
  /-- The connection is about to be asked for more octets. -/
  | asks (t : Ipc)
  /-- Some have come. -/
  | receives (t : Ipc)
  /-- A frame has been taken. -/
  | takes (t : Ipc)

def Moment.link : Moment → Ipc
  | asks t | receives t | takes t => t

/-- What a call comes to, and the moments on the way. -/
structure Watched (β : Type) where
  result : β
  moments : List Moment

namespace Watched

variable {α β : Type}

def behind (w : Watched β) (moments : List Moment) : Watched β :=
  { w with moments := moments ++ w.moments }

def orClose (w : Watched (Except TransportError α × Ipc)) :
    Watched (Except TransportError α × Ipc) :=
  { w with result := Ipc.orClose w.result }

end Watched

/-! ## Calls with their moments -/

/-- The link when some octets have come. -/
def receiving (t : Ipc) (octets : Bytes) (host : Host) : Ipc :=
  { t with host, received := t.received ++ octets }

/-- The link when a frame has been taken. -/
def taking (t : Ipc) (f : Frame) (rest : Bytes) : Ipc :=
  { t with frame := f.payload, received := rest }

def watchFrame (t : Ipc) : Watched (Except TransportError (Option Opcode) × Ipc) :=
  match Frame.take t.received with
  | .frame f rest =>
    { result := (.ok (some f.opcode), t.taking f rest), moments := [.takes (t.taking f rest)] }
  | .corrupt e => { result := (.error e, t), moments := [] }
  | .partly =>
    match _ : t.host.receive readChunk with
    | (.octets octets, host) =>
      (watchFrame (t.receiving octets host)).behind [.asks t, .receives (t.receiving octets host)]
    | (.nothingYet, _) => { result := (.ok none, t), moments := [.asks t] }
    | (.ended, _) => { result := (.error .pipeClosed, t), moments := [.asks t] }
termination_by t.host.unread
decreasing_by
  have := Host.unread_receive (show 0 < readChunk by decide) (by assumption)
  simp only [receiving]
  omega

theorem result_watchFrame (t : Ipc) : t.watchFrame.result = t.nextFrame := by
  fun_induction watchFrame t with
  | case1 t f rest hf =>
    rw [nextFrame, hf]
    rfl
  | case2 t e hf => rw [nextFrame, hf]
  | case3 t hf octets host hr ih =>
    rw [nextFrame_eq_takeBuffered, takeBuffered, hf]
    simp only [hr]
    exact ih
  | case4 t hf host hr =>
    rw [nextFrame_eq_takeBuffered, takeBuffered, hf]
    simp only [hr]
  | case5 t hf host hr =>
    rw [nextFrame_eq_takeBuffered, takeBuffered, hf]
    simp only [hr]

/-- What is done after looking for a frame: the call is over, or it goes on with
a link. -/
def afterFrame :
    Except TransportError (Option Opcode) × Ipc → Except TransportError (Option Bytes) × Ipc ⊕ Ipc
  | (.error e, t) => .inl (.error e, t)
  | (.ok none, t) => .inl (.ok none, t)
  | (.ok (some o), t) =>
    if o = .frame then .inl (.ok (some t.frame), t)
    else match t.answer o with
      | (.error e, t') => .inl (.error e, t')
      | (.ok _, t') => .inr t'

/-- What is done after looking for a message until the peer is ready. -/
def afterMessage :
    Except TransportError (Option Bytes) × Ipc → Except TransportError OpenStatus × Ipc ⊕ Ipc
  | (.error e, t) => .inl (.error e, t)
  | (.ok none, t) => .inl (.ok .pending, t)
  | (.ok (some payload), t) =>
    if isReady payload then .inl (.ok .connected, { t with state := .ready }) else .inr t

theorem nextMessage_eq (t : Ipc) :
    t.nextMessage = match afterFrame t.nextFrame with
      | .inl result => result
      | .inr t' => t'.nextMessage := by
  fun_cases nextMessage t with
  | case1 e t' hn => rw [hn, afterFrame]
  | case2 t' hn => rw [hn, afterFrame]
  | case3 t' hn => rw [hn, afterFrame, if_pos rfl]
  | case4 o t' ho hn e t'' ha => simp only [hn, afterFrame, if_neg ho, ha]
  | case5 o t' ho hn r t'' ha => simp only [hn, afterFrame, if_neg ho, ha]

theorem poll_eq (t : Ipc) :
    t.poll = match afterMessage t.nextMessage with
      | .inl result => result
      | .inr t' => t'.poll := by
  fun_cases poll t with
  | case1 e t' hn => rw [hn, afterMessage]
  | case2 t' hn => rw [hn, afterMessage]
  | case3 payload t' hn hready => rw [hn, afterMessage, if_pos hready]
  | case4 payload t' hn hready => simp only [hn, afterMessage, if_neg hready]

/-- A call goes on only once a frame has been dealt with. -/
theorem answered_of_afterFrame {result : Except TransportError (Option Opcode) × Ipc} {t' : Ipc}
    (h : afterFrame result = .inr t') :
    ∃ o t, result = (.ok (some o), t) ∧ (t.answer o).2 = t' := by
  unfold afterFrame at h
  split at h
  · cases h
  · cases h
  · rename_i o t
    split at h
    · cases h
    · split at h
      · cases h
      · rename_i ha
        cases h
        exact ⟨o, t, rfl, congrArg Prod.snd ha⟩

/-- A call goes on only once a message has been dropped. -/
theorem dropped_of_afterMessage {result : Except TransportError (Option Bytes) × Ipc} {t' : Ipc}
    (h : afterMessage result = .inr t') : ∃ payload, result = (.ok (some payload), t') := by
  unfold afterMessage at h
  split at h
  · cases h
  · cases h
  · split at h
    · cases h
    · cases h
      exact ⟨_, rfl⟩

theorem backlog_afterFrame {t t' : Ipc} (h : afterFrame t.nextFrame = .inr t') :
    t'.backlog < t.backlog := by
  obtain ⟨o, t₁, hn, rfl⟩ := answered_of_afterFrame h
  rw [backlog_answer]
  exact backlog_nextFrame hn

theorem backlog_afterMessage {t t' : Ipc} (h : afterMessage t.nextMessage = .inr t') :
    t'.backlog < t.backlog := by
  obtain ⟨payload, hn⟩ := dropped_of_afterMessage h
  exact backlog_nextMessage hn

def watchMessage (t : Ipc) : Watched (Except TransportError (Option Bytes) × Ipc) :=
  match _ : afterFrame t.watchFrame.result with
  | .inl result => { result, moments := t.watchFrame.moments }
  | .inr t' => (watchMessage t').behind t.watchFrame.moments
termination_by t.backlog
decreasing_by
  apply backlog_afterFrame
  rwa [← result_watchFrame]

theorem result_watchMessage (t : Ipc) : t.watchMessage.result = t.nextMessage := by
  fun_induction watchMessage t with
  | case1 t result h =>
    rw [nextMessage_eq, ← result_watchFrame, h]
  | case2 t t' h ih =>
    rw [nextMessage_eq, ← result_watchFrame, h]
    exact ih

def watchPoll (t : Ipc) : Watched (Except TransportError OpenStatus × Ipc) :=
  match _ : afterMessage t.watchMessage.result with
  | .inl result => { result, moments := t.watchMessage.moments }
  | .inr t' => (watchPoll t').behind t.watchMessage.moments
termination_by t.backlog
decreasing_by
  apply backlog_afterMessage
  rwa [← result_watchMessage]

theorem result_watchPoll (t : Ipc) : t.watchPoll.result = t.poll := by
  fun_induction watchPoll t with
  | case1 t result h =>
    rw [poll_eq, ← result_watchMessage, h]
  | case2 t t' h ih =>
    rw [poll_eq, ← result_watchMessage, h]
    exact ih

def watchConnect (t : Ipc) : Watched (Except TransportError OpenStatus × Ipc) :=
  match t.state with
  | .ready => { result := (.ok .connected, t), moments := [] }
  | .handshaking => t.watchPoll.orClose
  | .closed =>
    match t.begin with
    | (.error e, t') => { result := (.error e, t'.close), moments := [] }
    | (.ok _, t') => t'.watchPoll.orClose

theorem result_watchConnect (t : Ipc) : t.watchConnect.result = t.connect := by
  cases hs : t.state with
  | ready => simp only [watchConnect, connect, hs]
  | handshaking =>
    simp only [watchConnect, connect, hs, Watched.orClose, result_watchPoll]
  | closed =>
    rw [connect_of_closed hs]
    obtain ⟨r, t', hb⟩ : ∃ r t', t.begin = (r, t') := ⟨_, _, rfl⟩
    cases r with
    | error e => simp only [watchConnect, hs, hb]
    | ok u => simp only [watchConnect, hs, hb, Watched.orClose, result_watchPoll]

def watchRead (t : Ipc) : Watched (Except TransportError (Option Bytes) × Ipc) :=
  match t.state with
  | .ready => t.watchMessage.orClose
  | _ => { result := (.ok none, t), moments := [] }

theorem result_watchRead (t : Ipc) : t.watchRead.result = t.read := by
  cases hs : t.state with
  | ready => simp only [watchRead, read, hs, Watched.orClose, result_watchMessage]
  | _ => simp only [watchRead, read, hs]

/-- A call on a link, or a move of the peer, with all moments in it. -/
def watchStep (t : Ipc) : Step → Watched (Reply × Ipc)
  | .connect =>
    { result := (.status t.watchConnect.result.1, t.watchConnect.result.2),
      moments := t.watchConnect.moments }
  | .read =>
    { result := (.message t.watchRead.result.1, t.watchRead.result.2),
      moments := t.watchRead.moments }
  | s => { result := t.step s, moments := [] }

theorem result_watchStep (t : Ipc) (s : Step) : (t.watchStep s).result = t.step s := by
  cases s with
  | connect => rw [watchStep, result_watchConnect, step]
  | read => rw [watchStep, result_watchRead, step]
  | _ => rfl

theorem asks_mem_watchFrame {t : Ipc} (h : Frame.take t.received = .partly) :
    .asks t ∈ t.watchFrame.moments := by
  fun_cases watchFrame t with
  | case1 f rest hf => simp [h] at hf
  | case2 e hf => simp [h] at hf
  | case3 => exact List.mem_cons_self
  | case4 => exact List.mem_cons_self
  | case5 => exact List.mem_cons_self

theorem mem_watchPoll {t : Ipc} {m : Moment} (h : m ∈ t.watchFrame.moments) :
    m ∈ t.watchPoll.moments := by
  have hmessage : m ∈ t.watchMessage.moments := by
    fun_cases watchMessage t with
    | case1 => exact h
    | case2 => exact List.mem_append_left _ h
  fun_cases watchPoll t with
  | case1 => exact hmessage
  | case2 => exact List.mem_append_left _ hmessage

/-- A link that is being opened asks for more as long as no frame is complete. -/
theorem asks_of_handshaking {t : Ipc} (hs : t.state = .handshaking)
    (h : Frame.take t.received = .partly) : .asks t ∈ (t.watchStep .connect).moments := by
  simp only [watchStep, watchConnect, hs]
  exact mem_watchPoll (asks_mem_watchFrame h)

/-! ## One moment and the next -/

/-- What may be held at a moment. -/
def Moment.Sound : Moment → Prop
  | asks t => t.Bounded ∧ Incomplete t.received
  | receives t | takes t => t.Bounded

theorem Moment.Sound.link {m : Moment} (h : m.Sound) : m.link.Bounded := by
  cases m with
  | asks t => exact h.1
  | receives t | takes t => exact h

/-- A call that keeps within the bounds at every moment and to its end. -/
structure Keeps {α : Type} (w : Watched (α × Ipc)) : Prop where
  moments : ∀ m ∈ w.moments, m.Sound
  result : w.result.2.Bounded

variable {t : Ipc}

theorem bounded_receiving {octets : Bytes} (h : t.Bounded) (hi : Incomplete t.received)
    (hle : octets.length ≤ readChunk) (host : Host) : (t.receiving octets host).Bounded where
  received := by
    -- It is only here that anything is added, and before it there is less than a frame.
    have hshort := hi.short
    rw [receiving, List.length_append, capacity]
    omega
  frame := h.frame

theorem bounded_taking {f : Frame} {rest : Bytes} (h : t.Bounded)
    (htake : Frame.take t.received = .frame f rest) : (t.taking f rest).Bounded where
  received := by
    have hshorter := Frame.take_frame_shorter htake
    have hroom := h.received
    simp only [taking]
    omega
  frame := Frame.payload_le_of_take htake

theorem bounded_close (t : Ipc) : t.close.Bounded where
  received := show 0 < capacity by decide
  frame := Nat.zero_le _

theorem bounded_orClose {α : Type} {result : Except TransportError α × Ipc}
    (h : result.2.Bounded) : (orClose result).2.Bounded := by
  obtain ⟨e | a, t⟩ := result
  · exact bounded_close t
  · exact h

theorem Bounded.with_host (h : t.Bounded) (host : Host) : { t with host }.Bounded :=
  ⟨h.received, h.frame⟩

theorem Bounded.writeFrame (h : t.Bounded) (f : Frame) : (t.writeFrame f).2.Bounded := by
  unfold Ipc.writeFrame
  split
  · exact h
  · split
    · exact h
    · exact h.with_host _

theorem Bounded.answer (h : t.Bounded) (o : Opcode) : (t.answer o).2.Bounded := by
  cases o with
  | ping => exact h.writeFrame _
  | _ => exact h

theorem Bounded.begin {r : Except TransportError Unit} {t' : Ipc} (h : t.Bounded)
    (hb : t.begin = (r, t')) : t'.Bounded := by
  unfold Ipc.begin at hb
  split at hb
  · cases hb
    exact h
  · cases hb
    exact h
  · rename_i host _
    have hwrite := (h.with_host host).writeFrame ⟨.handshake, greeting t.applicationId⟩
    split at hb
    · rename_i hw
      cases hb
      rwa [hw] at hwrite
    · rename_i hw
      cases hb
      rw [hw] at hwrite
      exact ⟨hwrite.received, hwrite.frame⟩

theorem bounded_afterFrame {result : Except TransportError (Option Opcode) × Ipc}
    (h : result.2.Bounded) : (afterFrame result).elim (fun r => r.2.Bounded) Bounded := by
  unfold afterFrame
  split
  · exact h
  · exact h
  · rename_i o t
    split
    · exact h
    · have hanswer := Bounded.answer h o
      split
      · rename_i ha
        rwa [ha] at hanswer
      · rename_i ha
        rwa [ha] at hanswer

theorem bounded_afterMessage {result : Except TransportError (Option Bytes) × Ipc}
    (h : result.2.Bounded) : (afterMessage result).elim (fun r => r.2.Bounded) Bounded := by
  unfold afterMessage
  split
  · exact h
  · exact h
  · split
    · exact ⟨h.received, h.frame⟩
    · exact h

theorem Keeps.behind {α : Type} {w : Watched (α × Ipc)} (h : Keeps w) {moments : List Moment}
    (hm : ∀ m ∈ moments, m.Sound) : Keeps (w.behind moments) where
  moments m hmem := (List.mem_append.1 hmem).elim (hm m) (h.moments m)
  result := h.result

theorem Keeps.orClose {α : Type} {w : Watched (Except TransportError α × Ipc)} (h : Keeps w) :
    Keeps w.orClose :=
  ⟨h.moments, bounded_orClose h.result⟩

/-! ## Whole calls -/

theorem keeps_watchFrame (h : t.Bounded) : Keeps t.watchFrame := by
  fun_induction watchFrame t with
  | case1 t f rest hf =>
    have htaken := bounded_taking h hf
    exact ⟨List.forall_mem_singleton.2 htaken, htaken⟩
  | case2 t e hf => exact ⟨nofun, h⟩
  | case3 t hf octets host hr ih =>
    have hi := incomplete_of_partly hf
    have hreceived := bounded_receiving h hi (length_receive hr) host
    apply (ih hreceived).behind
    simp only [List.mem_cons, List.not_mem_nil, or_false]
    rintro m (rfl | rfl)
    · exact ⟨h, hi⟩
    · exact hreceived
  | case4 t hf host hr => exact ⟨List.forall_mem_singleton.2 ⟨h, incomplete_of_partly hf⟩, h⟩
  | case5 t hf host hr => exact ⟨List.forall_mem_singleton.2 ⟨h, incomplete_of_partly hf⟩, h⟩

theorem keeps_watchMessage (h : t.Bounded) : Keeps t.watchMessage := by
  fun_induction watchMessage t with
  | case1 t result ha =>
    have hframe := keeps_watchFrame h
    have hafter := bounded_afterFrame hframe.result
    rw [ha] at hafter
    exact ⟨hframe.moments, hafter⟩
  | case2 t t' ha ih =>
    have hframe := keeps_watchFrame h
    have hafter := bounded_afterFrame hframe.result
    rw [ha] at hafter
    exact (ih hafter).behind hframe.moments

theorem keeps_watchPoll (h : t.Bounded) : Keeps t.watchPoll := by
  fun_induction watchPoll t with
  | case1 t result ha =>
    have hmessage := keeps_watchMessage h
    have hafter := bounded_afterMessage hmessage.result
    rw [ha] at hafter
    exact ⟨hmessage.moments, hafter⟩
  | case2 t t' ha ih =>
    have hmessage := keeps_watchMessage h
    have hafter := bounded_afterMessage hmessage.result
    rw [ha] at hafter
    exact (ih hafter).behind hmessage.moments

theorem keeps_watchConnect (h : t.Bounded) : Keeps t.watchConnect := by
  unfold watchConnect
  split
  · exact ⟨nofun, h⟩
  · exact (keeps_watchPoll h).orClose
  · split
    · exact ⟨nofun, bounded_close _⟩
    · rename_i hb
      exact (keeps_watchPoll (h.begin hb)).orClose

theorem keeps_watchRead (h : t.Bounded) : Keeps t.watchRead := by
  cases hs : t.state with
  | ready =>
    simp only [watchRead, hs]
    exact (keeps_watchMessage h).orClose
  | _ =>
    simp only [watchRead, hs]
    exact ⟨nofun, h⟩

theorem Bounded.write (h : t.Bounded) (payload : Bytes) : (t.write payload).2.Bounded := by
  unfold Ipc.write
  split
  · exact bounded_orClose (h.writeFrame _)
  · exact h

theorem keeps_watchStep (h : t.Bounded) (s : Step) : Keeps (t.watchStep s) := by
  cases s with
  | connect => exact ⟨(keeps_watchConnect h).moments, (keeps_watchConnect h).result⟩
  | read => exact ⟨(keeps_watchRead h).moments, (keeps_watchRead h).result⟩
  | write payload => exact ⟨nofun, h.write payload⟩
  | close => exact ⟨nofun, bounded_close t⟩
  | peer m => exact ⟨nofun, h.with_host _⟩

/-! ## Any calls -/

/-- A link in the course of any calls. A call that has asked for octets goes on
as a new one does, with whatever comes and with whatever has become of the sockets
meanwhile. -/
inductive Underway : Ipc → Prop where
  | new (applicationId : String) (socketPath : Option String)
      (environment : List (String × String)) (host : Host) :
      Underway { applicationId, socketPath, environment, host }
  | step {t : Ipc} (h : Underway t) (s : Step) : Underway (t.step s).2
  | resume {t t' : Ipc} {s : Step} {octets : Bytes} (h : Underway t)
      (hasks : .asks t' ∈ (t.watchStep s).moments) (hle : octets.length ≤ readChunk) (host : Host) :
      Underway (t'.receiving octets host)

theorem Underway.bounded (h : Underway t) : t.Bounded := by
  induction h with
  | new applicationId socketPath environment host =>
    exact ⟨show 0 < capacity by decide, Nat.zero_le _⟩
  | @step t _ s ih =>
    rw [← result_watchStep]
    exact (keeps_watchStep ih s).result
  | @resume t t' s octets _ hasks hle host ih =>
    obtain ⟨hbounded, hincomplete⟩ := (keeps_watchStep ih s).moments _ hasks
    exact bounded_receiving hbounded hincomplete hle host

/-- **A link never holds more than a frame and a piece.** Whatever the peer sends,
in whatever pieces, and whatever the calls, the octets that wait for their frame
are fewer than a frame of the largest size and one piece together, and the
payload of the frame taken last is not too large; this is so between the calls
and at every moment in them. Whenever more octets are asked for, those that wait
are fewer than a frame of the largest size and do not begin with a whole frame. -/
theorem link_holds_one_frame {t : Ipc} (h : Underway t) (s : Step) :
    let w := t.watchStep s
    w.result = t.step s ∧
    (t.received.length < Frame.headerSize + Frame.maxPayload + readChunk ∧
      t.frame.length ≤ Frame.maxPayload) ∧
    (∀ m ∈ w.moments,
      m.link.received.length < Frame.headerSize + Frame.maxPayload + readChunk ∧
      m.link.frame.length ≤ Frame.maxPayload) ∧
    ∀ t', .asks t' ∈ w.moments →
      t'.received.length < Frame.headerSize + Frame.maxPayload ∧
      ∀ (f : Frame) octets, f.encode? = some octets → ¬octets <+: t'.received := by
  intro w
  have hw : Keeps w := keeps_watchStep h.bounded s
  refine ⟨result_watchStep t s, ⟨h.bounded.received, h.bounded.frame⟩, ?_, ?_⟩
  · intro m hm
    have hlink := (hw.moments m hm).link
    exact ⟨hlink.received, hlink.frame⟩
  · intro t' hasks
    obtain ⟨-, hincomplete⟩ := hw.moments _ hasks
    exact ⟨hincomplete.short, hincomplete.partly⟩

/-- A peer announces a frame of the largest size while a link is being opened, and
two octets of it have come. -/
theorem link_holds_one_frame_of_large_header :
    let t := (listening.step .connect).2
    let waiting := t.receiving (Frame.header 1 65536 ++ [7, 8]) t.host
    Underway t ∧ .asks t ∈ (t.watchStep .connect).moments ∧
    Underway waiting ∧ .asks waiting ∈ (waiting.watchStep .connect).moments ∧
    waiting.received = Frame.header 1 65536 ++ [7, 8] ∧
    ∀ (f : Frame) octets, f.encode? = some octets → ¬octets <+: waiting.received := by
  intro t waiting
  have ht : t.state = .handshaking ∧ t.received = [] := by
    change (listening.step .connect).2.state = _ ∧ (listening.step .connect).2.received = _
    rw [step, connect_of_closed rfl, begin_listening]
    decide +kernel
  have hreceived : waiting.received = Frame.header 1 65536 ++ [7, 8] := congrArg (· ++ _) ht.2
  have hunderway : Underway t := (Underway.new "1" (some "s") [] listening.host).step .connect
  have hasks : .asks t ∈ (t.watchStep .connect).moments :=
    asks_of_handshaking ht.1 (by rw [ht.2]; decide)
  have hresumed : Underway waiting := hunderway.resume hasks (by decide) t.host
  have hasks' : .asks waiting ∈ (waiting.watchStep .connect).moments :=
    asks_of_handshaking ht.1 (by rw [hreceived]; decide)
  exact ⟨hunderway, hasks, hresumed, hasks', hreceived,
    ((link_holds_one_frame hresumed .connect).2.2.2 waiting hasks').2⟩

end Ipc

end PresenceLink
