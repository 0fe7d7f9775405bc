import PresenceLink.Proofs.Ipc.Dialogue

/-!
# One connection after the other

A caller opens a link, reads, writes and closes, in any order, while the peer
listens, sends and closes as it likes. Whatever they do, the state tells
whether there is a connection, and a link that is closed holds nothing of the
connections it had.

* `standing_nextMessage`, `standing_poll`: how far reading changes the state;
* `Consistent`: the state and what is held agree;
* `consistent_step`: every call and every move of the peer keeps this;
* `step_renewed`: a link that is closed goes on as a new one does;
* `calls_keep_connections_apart`: all of it, after any number of calls.
-/

namespace PresenceLink

/-! ## The peer -/

/-- What a peer may do. -/
inductive PeerMove where
  | listen (path : String)
  | unlisten (path : String)
  | send (octets : Bytes)
  /-- Close its end for good. -/
  | close
  /-- Close its end for sending only. -/
  | shut
  | accept
  | receive
  deriving DecidableEq, Repr

namespace Host

def act (h : Host) : PeerMove → Host
  | .listen path => h.listen path
  | .unlisten path => h.unlisten path
  | .send octets => h.peerSend octets
  | .close => h.peerClose
  | .shut => h.peerShut
  | .accept => h.accept.2
  | .receive => h.peerReceive.2

/-- The sockets without the latest connection. -/
def forget (h : Host) : Host := { h with connection := none }

theorem isSome_stream? (h : Host) :
    h.stream?.isSome = (h.connection.map fun c => !c.hungUp).getD false := by
  unfold stream?
  cases h.connection with
  | none => rfl
  | some c => cases hc : c.hungUp <;> simp [hc]

/-- A peer changes the connection, but does not end it for the client. -/
theorem connection_act (h : Host) (m : PeerMove) :
    ∃ f : Connection → Connection, (∀ c, (f c).hungUp = c.hungUp) ∧
      (h.act m).connection = h.connection.map f := by
  cases m with
  | listen path => exact ⟨id, fun _ => rfl, Option.map_id'.symm⟩
  | unlisten path => exact ⟨id, fun _ => rfl, Option.map_id'.symm⟩
  | send octets =>
    refine ⟨_, fun c => ?_, rfl⟩
    split <;> rfl
  | close => exact ⟨fun c => { c with ended := true, deaf := true }, fun _ => rfl, rfl⟩
  | shut => exact ⟨fun c => { c with ended := true }, fun _ => rfl, rfl⟩
  | accept =>
    refine ⟨fun c => { c with accepted := true }, fun _ => rfl, ?_⟩
    rw [act, accept]
    cases hc : h.connection <;> simp [hc]
  | receive =>
    refine ⟨fun c => { c with outgoing := [] }, fun _ => rfl, ?_⟩
    rw [act, peerReceive]
    cases hc : h.connection <;> simp [hc]

theorem isSome_stream?_act (h : Host) (m : PeerMove) :
    (h.act m).stream?.isSome = h.stream?.isSome := by
  obtain ⟨f, hf, hc⟩ := connection_act h m
  rw [isSome_stream?, isSome_stream?, hc, Option.map_map]
  congr 2
  funext c
  exact congrArg (!·) (hf c)

theorem isSome_stream?_receive (h : Host) (most : Nat) :
    (h.receive most).2.stream?.isSome = h.stream?.isSome := by
  unfold receive
  split
  · rfl
  · rename_i c hc
    split
    · rfl
    · rw [stream?_of_connection rfl (by exact (stream?_eq_some_iff.1 hc).2), hc]
      rfl

theorem isSome_stream?_send {h h' : Host} {bytes : Bytes} (hs : h.send bytes = some h') :
    h'.stream?.isSome = h.stream?.isSome := by
  unfold send at hs
  split at hs
  · cases hs
  · rename_i c hc
    split at hs
    · cases hs
    · cases hs
      rw [stream?_of_connection rfl (by exact (stream?_eq_some_iff.1 hc).2), hc]
      rfl

/-! ### Connecting again -/

theorem follow_forget (h : Host) (p : Place) (parts : List String) :
    h.forget.follow p parts = h.follow p parts := by
  induction parts generalizing p with
  | nil => rfl
  | cons part parts ih =>
    rw [follow, follow, ih]
    rfl

/-- An earlier connection makes no difference to a new one. -/
theorem connect_forget (h : Host) (path : String) : h.forget.connect path = h.connect path := by
  unfold connect
  simp only [follow_forget]
  rfl

theorem forget_act (h : Host) (m : PeerMove) : (h.act m).forget = h.forget.act m := by
  cases m with
  | accept =>
    rw [act, accept]
    cases h.connection <;> rfl
  | receive =>
    rw [act, peerReceive]
    cases h.connection <;> rfl
  | _ => rfl

end Host

namespace Ipc

theorem reach_forget (h : Host) (last : Option ConnectFault) (paths : List String) :
    reach h.forget last paths = reach h last paths := by
  induction paths generalizing last with
  | nil => rfl
  | cons path paths ih => simp only [reach, Host.connect_forget, ih]

/-! ## State and stream -/

/-- The state, and whether there is a connection. -/
def standing (t : Ipc) : IpcState × Bool := (t.state, t.hasStream)

theorem standing_nextFrame (t : Ipc) : t.nextFrame.2.standing = t.standing := by
  fun_induction nextFrame t with
  | case1 => rfl
  | case2 => rfl
  | case3 t hf bytes host hr ih =>
    have hstream := Host.isSome_stream?_receive t.host readChunk
    rw [hr] at hstream
    exact ih.trans (congrArg (t.state, ·) hstream)
  | case4 => rfl
  | case5 => rfl

theorem standing_writeFrame (t : Ipc) (f : Frame) :
    (t.writeFrame f).2.standing = t.standing := by
  unfold writeFrame
  split
  · rfl
  · split
    · rfl
    · rename_i hs
      exact congrArg (t.state, ·) (Host.isSome_stream?_send hs)

theorem standing_answer (t : Ipc) (o : Opcode) : (t.answer o).2.standing = t.standing := by
  cases o with
  | ping => exact standing_writeFrame _ _
  | _ => rfl

theorem standing_nextMessage (t : Ipc) : t.nextMessage.2.standing = t.standing := by
  fun_induction nextMessage t with
  | case1 t e t' hn =>
    have hframe := standing_nextFrame t
    rwa [hn] at hframe
  | case2 t t' hn =>
    have hframe := standing_nextFrame t
    rwa [hn] at hframe
  | case3 t t' hn =>
    have hframe := standing_nextFrame t
    rwa [hn] at hframe
  | case4 t o t' ho hn e t'' ha =>
    have hframe := standing_nextFrame t
    have hanswer := standing_answer t' o
    rw [hn] at hframe
    rw [ha] at hanswer
    exact hanswer.trans hframe
  | case5 t o t' ho hn r t'' ha ih =>
    have hframe := standing_nextFrame t
    have hanswer := standing_answer t' o
    rw [hn] at hframe
    rw [ha] at hanswer
    exact (ih.trans hanswer).trans hframe

theorem state_nextMessage (t : Ipc) : t.nextMessage.2.state = t.state :=
  congrArg Prod.fst (standing_nextMessage t)

/-- A poll may find that the peer is ready. -/
theorem standing_poll (t : Ipc) :
    t.poll.2.standing = t.standing ∨ t.poll.2.standing = (.ready, t.hasStream) := by
  fun_induction poll t with
  | case1 t e t' hn =>
    have hmessage := standing_nextMessage t
    rw [hn] at hmessage
    exact Or.inl hmessage
  | case2 t t' hn =>
    have hmessage := standing_nextMessage t
    rw [hn] at hmessage
    exact Or.inl hmessage
  | case3 t payload t' hn hready =>
    have hmessage := standing_nextMessage t
    rw [hn] at hmessage
    exact Or.inr (congrArg (IpcState.ready, ·) (congrArg Prod.snd hmessage))
  | case4 t payload t' hn hready ih =>
    have hmessage := standing_nextMessage t
    rw [hn] at hmessage
    rcases ih with ih | ih
    · exact Or.inl (ih.trans hmessage)
    · exact Or.inr (ih.trans (congrArg (IpcState.ready, ·) (congrArg Prod.snd hmessage)))

theorem standing_begin {t t' : Ipc} (h : t.begin = (.ok (), t')) :
    t'.standing = (.handshaking, true) := by
  obtain ⟨⟨c, hc, -⟩, hstate⟩ := begin_spec h
  rw [standing, hstate, hasStream, hc]
  rfl

/-! ## What the state tells -/

/-- A link that holds nothing. -/
structure Down (t : Ipc) : Prop where
  state : t.state = .closed
  received : t.received = []
  frame : t.frame = []

/-- There is a connection unless the link is closed, and then nothing is held. -/
structure Consistent (t : Ipc) : Prop where
  hasStream : t.hasStream = true ↔ t.state ≠ .closed
  down : t.state = .closed → t.Down

theorem down_close (t : Ipc) : t.close.Down := ⟨rfl, received_close t, frame_close t⟩

theorem consistent_close (t : Ipc) : t.close.Consistent where
  hasStream := by simp [hasStream_close, (down_close t).state]
  down := fun _ => down_close t

theorem consistent_of_stream {t : Ipc} (hstream : t.hasStream = true)
    (hstate : t.state ≠ .closed) : t.Consistent :=
  ⟨iff_of_true hstream hstate, fun h => absurd h hstate⟩

theorem Consistent.isOpen_iff {t : Ipc} (h : t.Consistent) : t.isOpen = true ↔ t.state = .ready := by
  simp only [isOpen, Bool.and_eq_true, decide_eq_true_eq, and_iff_left_iff_imp]
  intro hready
  exact h.hasStream.2 (by simp [hready])

/-- Whatever goes wrong closes the link. -/
theorem consistent_orClose {α : Type} {result : Except TransportError α × Ipc} {state : IpcState}
    (h : result.2.standing = (state, true)) (hs : state ≠ .closed) :
    (orClose result).2.Consistent := by
  obtain ⟨e | a, t⟩ := result
  · exact consistent_close t
  · obtain ⟨rfl, hstream⟩ := Prod.mk.inj h
    exact consistent_of_stream hstream hs

theorem state_orClose {α : Type} {result : Except TransportError α × Ipc} {e : TransportError}
    (h : (orClose result).1 = .error e) : (orClose result).2.state = .closed := by
  obtain ⟨_ | a, t⟩ := result
  · rfl
  · cases h

/-! ## Calls -/

theorem Consistent.standing {t : Ipc} (h : t.Consistent) (hs : t.state ≠ .closed) :
    t.standing = (t.state, true) :=
  congrArg (t.state, ·) (h.hasStream.2 hs)

theorem consistent_poll {t : Ipc} {state : IpcState} (h : t.standing = (state, true))
    (hs : state ≠ .closed) : (orClose t.poll).2.Consistent := by
  rcases standing_poll t with hpoll | hpoll
  · exact consistent_orClose (hpoll.trans h) hs
  · have hstream : t.hasStream = true := congrArg Prod.snd h
    rw [hstream] at hpoll
    exact consistent_orClose hpoll IpcState.noConfusion

theorem consistent_connect {t : Ipc} (h : t.Consistent) : t.connect.2.Consistent := by
  unfold connect
  split
  · exact h
  · rename_i hs
    have hne : t.state ≠ .closed := by simp [hs]
    exact consistent_poll (h.standing hne) hne
  · split
    · exact consistent_close _
    · rename_i u t' hb
      exact consistent_poll (standing_begin hb) IpcState.noConfusion

theorem consistent_read {t : Ipc} (h : t.Consistent) : t.read.2.Consistent := by
  unfold read
  split
  · rename_i hs
    have hne : t.state ≠ .closed := by simp [hs]
    exact consistent_orClose ((standing_nextMessage t).trans (h.standing hne)) hne
  · exact h

theorem consistent_write {t : Ipc} (h : t.Consistent) (payload : Bytes) :
    (t.write payload).2.Consistent := by
  unfold write
  split
  · rename_i hopen
    have hne : t.state ≠ .closed := by simp [h.isOpen_iff.1 hopen]
    exact consistent_orClose ((standing_writeFrame t _).trans (h.standing hne)) hne
  · exact h

theorem state_connect_error {t : Ipc} {e : TransportError} (h : t.connect.1 = .error e) :
    t.connect.2.state = .closed := by
  unfold connect at h ⊢
  split at h
  · cases h
  · exact state_orClose h
  · split at h
    · rfl
    · exact state_orClose h

theorem state_read_error {t : Ipc} {e : TransportError} (h : t.read.1 = .error e) :
    t.read.2.state = .closed := by
  unfold read at h ⊢
  split at h
  · exact state_orClose h
  · cases h

theorem state_write_error {t : Ipc} (hc : t.Consistent) (hs : t.state = .ready) {payload : Bytes}
    {e : TransportError} (h : (t.write payload).1 = .error e) :
    (t.write payload).2.state = .closed := by
  rw [write, if_pos (hc.isOpen_iff.2 hs)] at h ⊢
  exact state_orClose h

/-- A link that is not up takes nothing to be written. -/
theorem write_of_not_ready {t : Ipc} (h : t.state ≠ .ready) (payload : Bytes) :
    t.write payload = (.error .pipeClosed, t) := by
  rw [write, if_neg (by simp [isOpen, h])]

/-! ## Steps -/

/-- A call on a link, or a move of the peer. -/
inductive Step where
  | connect
  | read
  | write (payload : Bytes)
  | close
  | peer (m : PeerMove)
  deriving DecidableEq, Repr

/-- What the caller is given. -/
inductive Reply where
  | status (result : Except TransportError OpenStatus)
  | message (result : Except TransportError (Option Bytes))
  | written (result : Except TransportError Unit)
  | nothing

def step (t : Ipc) : Step → Reply × Ipc
  | .connect => (.status t.connect.1, t.connect.2)
  | .read => (.message t.read.1, t.read.2)
  | .write payload => (.written (t.write payload).1, (t.write payload).2)
  | .close => (.nothing, t.close)
  | .peer m => (.nothing, { t with host := t.host.act m })

/-- The link after some steps. -/
def after (t : Ipc) (steps : List Step) : Ipc := steps.foldl (fun t s => (t.step s).2) t

/-- What the caller is given in some steps. -/
def replies (t : Ipc) : List Step → List Reply
  | [] => []
  | s :: steps => (t.step s).1 :: (t.step s).2.replies steps

theorem consistent_step {t : Ipc} (h : t.Consistent) (s : Step) : (t.step s).2.Consistent := by
  cases s with
  | connect => exact consistent_connect h
  | read => exact consistent_read h
  | write payload => exact consistent_write h payload
  | close => exact consistent_close t
  | peer m =>
    have hstream : ({ t with host := t.host.act m } : Ipc).hasStream = t.hasStream :=
      Host.isSome_stream?_act t.host m
    refine ⟨?_, fun hs => ⟨hs, (h.down hs).received, (h.down hs).frame⟩⟩
    exact (Bool.eq_iff_iff.1 hstream).trans h.hasStream

theorem consistent_after {t : Ipc} (h : t.Consistent) (steps : List Step) :
    (t.after steps).Consistent := by
  induction steps generalizing t with
  | nil => exact h
  | cons s steps ih => exact ih (consistent_step h s)

/-! ## Starting anew -/

/-- A new link over the same sockets. -/
def renewed (t : Ipc) : Ipc where
  applicationId := t.applicationId
  socketPath := t.socketPath
  environment := t.environment
  host := t.host.forget

/-- What a link holds. -/
def held (t : Ipc) : IpcState × Bytes × Bytes := (t.state, t.received, t.frame)

theorem Down.held_renewed {t : Ipc} (h : t.Down) : t.renewed.held = t.held := by
  simp [held, h.state, h.received, h.frame, renewed]

theorem Down.with_host {t : Ipc} (h : t.Down) (host : Host) :
    { t.renewed with host } = { t with host } := by
  obtain ⟨applicationId, socketPath, environment, _, state, received, frame⟩ := t
  obtain ⟨rfl, rfl, rfl⟩ := h
  rfl

theorem begin_renewed {t : Ipc} (h : t.Down) :
    t.renewed.begin = t.begin ∨
      ∃ e, t.begin = (.error e, t) ∧ t.renewed.begin = (.error e, t.renewed) := by
  have hreach : reach t.renewed.host none t.renewed.candidates = reach t.host none t.candidates :=
    reach_forget ..
  unfold begin
  rw [hreach]
  split
  · exact Or.inr ⟨_, rfl, rfl⟩
  · exact Or.inr ⟨_, rfl, rfl⟩
  · rename_i host _
    rw [h.with_host host]
    exact Or.inl rfl

/-- A step on a link that is closed, the only one that makes a new connection.
Either it leads to the same link as on a new one, or to one that is still
closed. -/
theorem step_renewed {t : Ipc} (h : t.Down) (s : Step) :
    (t.renewed.step s).1 = (t.step s).1 ∧
      ((t.renewed.step s).2 = (t.step s).2 ∨
        (t.step s).2.Down ∧ (t.renewed.step s).2 = (t.step s).2.renewed) := by
  cases s with
  | connect =>
    rw [step, step, connect_of_closed h.state, connect_of_closed (t := t.renewed) rfl]
    -- A new connection takes the place of the old one, and with it nothing of that is left.
    rcases begin_renewed h with he | ⟨e, hb, hb'⟩
    · rw [he]
      exact ⟨rfl, Or.inl rfl⟩
    · rw [hb, hb']
      exact ⟨rfl, Or.inr ⟨down_close t, rfl⟩⟩
  | read =>
    have hread : t.read = (.ok none, t) := by simp [read, h.state]
    have hread' : t.renewed.read = (.ok none, t.renewed) := rfl
    rw [step, step, hread, hread']
    exact ⟨rfl, Or.inr ⟨h, rfl⟩⟩
  | write payload =>
    have hwrite := write_of_not_ready (t := t) (by simp [h.state]) payload
    have hwrite' := write_of_not_ready (t := t.renewed) (by simp [renewed]) payload
    rw [step, step, hwrite, hwrite']
    exact ⟨rfl, Or.inr ⟨h, rfl⟩⟩
  | close => exact ⟨rfl, Or.inr ⟨down_close t, rfl⟩⟩
  | peer m =>
    refine ⟨rfl, Or.inr ⟨⟨h.state, h.received, h.frame⟩, ?_⟩⟩
    simp only [step, renewed, Host.forget_act]

theorem steps_renewed {t : Ipc} (h : t.Down) (steps : List Step) :
    t.renewed.replies steps = t.replies steps ∧
      (t.renewed.after steps).held = (t.after steps).held := by
  induction steps generalizing t with
  | nil => exact ⟨rfl, h.held_renewed⟩
  | cons s steps ih =>
    obtain ⟨hreply, hnext⟩ := step_renewed h s
    rw [replies, replies, hreply]
    rcases hnext with hsame | ⟨hdown, hnew⟩
    · -- From here on both are one and the same link.
      rw [hsame]
      refine ⟨rfl, ?_⟩
      rw [after, List.foldl_cons, hsame]
      rfl
    · obtain ⟨hreplies, hheld⟩ := ih hdown
      rw [hnew, hreplies]
      refine ⟨rfl, ?_⟩
      rw [after, List.foldl_cons, hnew]
      exact hheld

/-- **Connections are kept apart.** After any calls and any moves of the peer
there is a connection exactly if the link is not closed, and it is open exactly
if it is ready; every error of opening and reading, and every error of writing
on a link that is ready, closes it, and on one that is not ready writing changes
nothing. A link that is closed holds nothing, and goes on, whatever is to come,
as a new link over the same sockets does. -/
theorem calls_keep_connections_apart (applicationId : String) (socketPath : Option String)
    (environment : List (String × String)) (bindings : List Binding) (directories : List Place)
    (steps : List Step) :
    let new : Ipc := { applicationId, socketPath, environment, host := { bindings, directories } }
    let t := new.after steps
    (t.hasStream = true ↔ t.state ≠ .closed) ∧
    (t.isOpen = true ↔ t.state = .ready) ∧
    (t.state = .closed → t.received = [] ∧ t.frame = []) ∧
    (∀ e, t.connect.1 = .error e → t.connect.2.state = .closed) ∧
    (∀ e, t.read.1 = .error e → t.read.2.state = .closed) ∧
    (∀ payload e, t.state = .ready → (t.write payload).1 = .error e →
      (t.write payload).2.state = .closed) ∧
    (∀ payload, t.state ≠ .ready → t.write payload = (.error .pipeClosed, t)) ∧
    (t.state = .closed → ∀ later, t.renewed.replies later = t.replies later ∧
      (t.renewed.after later).held = (t.after later).held) := by
  intro new t
  have hnew : new.Consistent :=
    ⟨by simp [new, hasStream, Host.stream?], fun _ => ⟨rfl, rfl, rfl⟩⟩
  have ht : t.Consistent := consistent_after hnew steps
  exact ⟨ht.hasStream, ht.isOpen_iff, fun hs => ⟨(ht.down hs).received, (ht.down hs).frame⟩,
    fun e => state_connect_error, fun e => state_read_error,
    fun payload e hs => state_write_error ht hs, fun payload hs => write_of_not_ready hs payload,
    fun hs => steps_renewed (ht.down hs)⟩

/-- The start of a frame that has come before the link is closed. -/
theorem calls_keep_connections_apart_of_half_frame :
    let steps := [.connect, .peer (.send [1, 0, 0]), .connect]
    (listening.after steps).received = [1, 0, 0] ∧
      (listening.after (steps ++ [.close])).state = .closed ∧
      ∀ later, (listening.after (steps ++ [.close])).renewed.replies later =
        (listening.after (steps ++ [.close])).replies later := by
  intro steps
  have hclosed : (listening.after (steps ++ [.close])).state = .closed := rfl
  have hconnections := calls_keep_connections_apart "1" (some "s") [] listening.host.bindings
    listening.host.directories (steps ++ [.close])
  refine ⟨?_, hclosed, fun later => (hconnections.2.2.2.2.2.2.2 hclosed later).1⟩
  rw [after, List.foldl_cons, step, connect_of_closed rfl, begin_listening]
  decide +kernel

end Ipc

end PresenceLink
