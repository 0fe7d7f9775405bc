import PresenceLink.Proofs.Ipc.Calls

/-!
# Whole dialogues

A caller opens a link, asks again until it is up, and then reads, up to the
first error. The peer sends its octets in any pieces between the calls, and may
hang up after the last one. All of this comes to what the stream says.

* `Leads`: where a dialogue leads, whatever pieces are still to come;
* `leads_call`, `leads_deliver`, `leads_hangUp`, `leads_start`: no step changes
  it;
* `pieces_do_not_matter`: the answers and the octets sent depend on the stream
  alone.
-/

namespace PresenceLink.Ipc

/-- Open the link, or go on with it, and read once it is up. -/
def call (t : Ipc) : Except TransportError (Option Answer) × Ipc :=
  match t.state with
  | .ready => taken t.read
  | _ => polled t.connect

/-- The octets that the client has sent on its latest connection. -/
def sent (t : Ipc) : Bytes := (t.host.connection.map (·.outgoing)).getD []

def opened (t : Ipc) : Bool := t.state = .ready

/-- A caller and its link. -/
structure Dialogue where
  transport : Ipc
  answers : List Answer
  /-- An error has come. -/
  stopped : Bool

/-- What happens between opening a link and the peer's last octet. -/
inductive Move where
  | deliver (octets : Bytes)
  | call
  deriving DecidableEq, Repr

/-- The octets that the peer sends. -/
def delivered : List Move → Bytes
  | [] => []
  | .deliver octets :: moves => octets ++ delivered moves
  | .call :: moves => delivered moves

namespace Dialogue

def deliver (d : Dialogue) (octets : Bytes) : Dialogue :=
  { d with transport := { d.transport with host := d.transport.host.peerSend octets } }

/-- The peer sends no more. -/
def hangUp (d : Dialogue) : Dialogue :=
  { d with transport := { d.transport with host := d.transport.host.peerShut } }

def call (d : Dialogue) : Dialogue :=
  if d.stopped then d
  else match d.transport.call with
    | (.ok answer, t) => { d with transport := t, answers := d.answers ++ answer.toList }
    | (.error e, t) => { transport := t, answers := d.answers ++ [.failed e], stopped := true }

def move (d : Dialogue) : Move → Dialogue
  | .deliver octets => d.deliver octets
  | .call => d.call

/-- The first call on a link that is closed. -/
def start (t : Ipc) : Dialogue := call { transport := t, answers := [], stopped := false }

def calls (d : Dialogue) : Nat → Dialogue
  | 0 => d
  | n + 1 => calls d.call n

/-- The dialogue over a link that is closed: first some moves, and then calls
only, on a link that the peer has hung up or not. -/
def whole (t : Ipc) (moves : List Move) (hangsUp : Bool) (n : Nat) : Dialogue :=
  let d := moves.foldl move (start t)
  (if hangsUp then d.hangUp else d).calls n

def transcript (d : Dialogue) : Transcript := { answers := d.answers, sent := d.transport.sent }

/-- A dialogue on a link that is up or coming up. -/
structure Live (d : Dialogue) (stream : Bytes) (ended : Bool) : Prop where
  stopped : d.stopped = false
  state : d.transport.state ≠ .closed
  online : Online d.transport stream d.transport.sent ended

end Dialogue

theorem Online.unique {t : Ipc} {stream stream' sent sent' : Bytes} {ended ended' : Bool}
    (h : Online t stream sent ended) (h' : Online t stream' sent' ended') :
    stream = stream' ∧ ended = ended' := by
  obtain ⟨c, hc, -, he, -, hs⟩ := h
  obtain ⟨c', hc', -, he', -, hs'⟩ := h'
  rw [hc] at hc'
  cases hc'
  exact ⟨hs.symm.trans hs', he.symm.trans he'⟩

theorem Online.sent_eq {t : Ipc} {stream sent : Bytes} {ended : Bool}
    (h : Online t stream sent ended) : t.sent = sent := by
  obtain ⟨c, hc, -, -, ho, -⟩ := h
  rw [Ipc.sent, (Host.stream?_eq_some_iff.1 hc).1]
  exact ho

theorem online_of_stream {t : Ipc} {c : Connection} (hc : t.host.stream? = some c)
    (hd : c.deaf = false) : Online t (t.received ++ c.incoming) t.sent c.ended := by
  refine ⟨c, hc, hd, rfl, ?_, rfl⟩
  rw [Ipc.sent, (Host.stream?_eq_some_iff.1 hc).1]
  rfl

theorem sent_close (t : Ipc) : t.close.sent = t.sent := by
  unfold sent close Host.hangUp
  cases t.host.connection <;> rfl

/-! ## Moves of the peer -/

theorem sent_peerSend (t : Ipc) (octets : Bytes) :
    ({ t with host := t.host.peerSend octets } : Ipc).sent = t.sent := by
  unfold sent Host.peerSend
  cases t.host.connection with
  | none => rfl
  | some c =>
    simp only [Option.map_some, Option.getD_some]
    split <;> rfl

theorem sent_peerShut (t : Ipc) : ({ t with host := t.host.peerShut } : Ipc).sent = t.sent := by
  unfold sent Host.peerShut
  cases t.host.connection <;> rfl

theorem Online.peerSend {t : Ipc} {stream sent : Bytes} (h : Online t stream sent false)
    (octets : Bytes) :
    Online { t with host := t.host.peerSend octets } (stream ++ octets) sent false := by
  obtain ⟨c, hc, hd, he, ho, hs⟩ := h
  obtain ⟨hconn, hh⟩ := Host.stream?_eq_some_iff.1 hc
  refine ⟨{ c with incoming := c.incoming ++ octets }, Host.stream?_of_connection ?_ hh, hd, he, ho,
    ?_⟩
  · simp [Host.peerSend, hconn, hh, he]
  · rw [← hs, List.append_assoc]

theorem Online.peerShut {t : Ipc} {stream sent : Bytes} {ended : Bool}
    (h : Online t stream sent ended) :
    Online { t with host := t.host.peerShut } stream sent true := by
  obtain ⟨c, hc, hd, -, ho, hs⟩ := h
  obtain ⟨hconn, hh⟩ := Host.stream?_eq_some_iff.1 hc
  refine ⟨{ c with ended := true }, Host.stream?_of_connection ?_ hh, hd, rfl, ho, hs⟩
  simp [Host.peerShut, hconn]

/-! ## Opening -/

theorem connection_of_connect {h h' : Host} {path : String} (hc : h.connect path = .ok h') :
    ∃ path', h'.connection = some { path := path' } := by
  unfold Host.connect at hc
  dsimp only at hc
  split at hc
  · cases hc
  · split at hc
    · cases hc
    · split at hc
      · cases hc
      · split at hc
        · cases hc
        · split at hc
          · split at hc
            · cases hc
              exact ⟨_, rfl⟩
            · cases hc
          · cases hc

theorem connection_of_reach {h h' : Host} {last : Option ConnectFault} {paths : List String}
    (hr : reach h last paths = .ok h') : ∃ path, h'.connection = some { path := path } := by
  induction paths generalizing last with
  | nil => cases hr
  | cons path paths ih =>
    rw [reach] at hr
    split at hr
    · rename_i hc
      cases hr
      exact connection_of_connect hc
    · exact ih hr

theorem online_of_reach {t : Ipc} {host : Host}
    (hr : reach t.host none t.candidates = .ok host) :
    Online { t with host } t.received [] false := by
  obtain ⟨path, hc⟩ := connection_of_reach hr
  exact ⟨_, Host.stream?_of_connection hc rfl, rfl, rfl, rfl, List.append_nil _⟩

/-- A new connection has the handshake behind it and nothing to read yet. -/
theorem begin_spec {t t' : Ipc} (h : t.begin = (.ok (), t')) :
    Online t' t.received (Frame.header Opcode.handshake.code (greeting t.applicationId).length ++
      greeting t.applicationId) false ∧ t'.state = .handshaking := by
  unfold begin at h
  split at h
  · cases h
  · cases h
  · rename_i host hr
    by_cases hle : (greeting t.applicationId).length ≤ Frame.maxPayload
    · have hwrite :=
        writeFrame_spec (f := ⟨.handshake, greeting t.applicationId⟩) (online_of_reach hr) hle
      obtain ⟨t₁, hw, -, honline⟩ := hwrite
      rw [hw] at h
      cases h
      exact ⟨⟨honline.connection⟩, rfl⟩
    · rw [writeFrame, Frame.encode?, if_neg hle] at h
      cases h

/-- A link to a peer that listens. -/
def listening : Ipc where
  applicationId := "1"
  socketPath := some "s"
  environment := []
  host := ({} : Host).listen "s"

/-- The name is a single part: its only character is no slash. -/
theorem parts_s : Place.parts "s" = ["s"] := by
  rw [Place.parts, String.splitOn, if_neg (by decide), String.splitOnAux,
    if_neg (by decide +kernel), if_neg (by decide +kernel), String.splitOnAux,
    if_pos (by decide +kernel)]
  decide +kernel

theorem connect_listening :
    listening.host.connect "s" =
      .ok { listening.host with connection := some { path := "s" } } := by
  have hstart : Place.start "s" = { rooted := false } := by decide +kernel
  have hfollow :
      listening.host.follow (Place.start "s") (Place.parts "s") = .ok (Place.ofName "s") := by
    rw [Place.ofName, hstart, parts_s, Host.follow, if_pos (by decide)]
    rfl
  have hbinding : listening.host.binding? (Place.ofName "s") =
      some { path := "s", place := Place.ofName "s", listening := true } := by
    simp [listening, Host.listen, Host.binding?]
  rw [Host.connect, if_neg (by decide), if_neg (by decide), if_neg (by decide), hfollow]
  simp only [hbinding]
  rfl

theorem reach_listening :
    reach listening.host none listening.candidates =
      .ok { listening.host with connection := some { path := "s" } } := by
  change reach listening.host none ["s"] = _
  rw [reach, connect_listening]

theorem begin_listening :
    listening.begin = (.ok (), { listening with
      host := { listening.host with
        connection := some { path := "s", outgoing := Frame.header 0 23 ++ greeting "1" } },
      state := .handshaking }) := by
  have hlength : (greeting "1").length = 23 := by decide +kernel
  have hencode : Frame.encode? ⟨.handshake, greeting "1"⟩ =
      some (Frame.header 0 23 ++ greeting "1") := by
    rw [Frame.encode?, hlength]
    rfl
  have hid : listening.applicationId = "1" := rfl
  rw [begin, reach_listening]
  simp only [writeFrame, hid, hencode]
  rfl

theorem call_spec {t : Ipc} {stream sent : Bytes} {ended : Bool}
    (h : Online t stream sent ended) (hs : t.state ≠ .closed) :
    CallStep t.opened stream sent ended t.call := by
  unfold call opened
  cases hstate : t.state with
  | closed => exact absurd hstate hs
  | handshaking =>
    have hpoll := poll_spec h hstate
    simp only [connect, hstate]
    exact hpoll
  | ready => exact read_spec h hstate

theorem connect_of_closed {t : Ipc} (h : t.state = .closed) :
    t.connect = match t.begin with
      | (.error e, t) => (.error e, t.close)
      | (.ok _, t) => orClose t.poll := by
  cases hb : t.begin with
  | mk result t' => cases result <;> simp only [connect, h, hb]

theorem call_of_closed {t : Ipc} (h : t.state = .closed) :
    t.call = match t.begin with
      | (.error e, t) => (.error e, t.close)
      | (.ok _, t) => polled (orClose t.poll) := by
  simp only [call, h, connect_of_closed h]
  cases t.begin with
  | mk result t' => cases result <;> rfl

namespace Dialogue

/-- A call deals with a part of the stream and says what that part says, unless
it ends the dialogue. -/
theorem call_of_step {d : Dialogue} {opened ended : Bool} {stream sent : Bytes}
    (hstop : d.stopped = false) (h : CallStep opened stream sent ended d.transport.call) :
    (d.call.stopped = true ∧ ∀ ended' more, (ended = true → ended' = true ∧ more = []) →
      Transcript.followedBy ⟨d.answers, sent⟩ (reading ended' opened (stream ++ more)) =
        d.call.transcript) ∨
    ∃ rest, d.call.Live rest ended ∧
      (rest.length < stream.length ∧ d.answers.length < d.call.answers.length ∨
        rest.length ≤ stream.length ∧ Frame.take rest = .partly ∧ ended = false) ∧
      ∀ ended' more,
        Transcript.followedBy ⟨d.answers, sent⟩ (reading ended' opened (stream ++ more)) =
          d.call.transcript.followedBy
            (reading ended' d.call.transport.opened (rest ++ more)) := by
  unfold Dialogue.call
  rw [hstop, if_neg Bool.false_ne_true]
  generalize d.transport.call = result at h
  cases h with
  | @answered t a rest reply hlt hstate honline hreading =>
    have hsent := honline.sent_eq
    refine Or.inr ⟨rest, ⟨rfl, ?_, ?_⟩, Or.inl ⟨hlt, by simp⟩, ?_⟩
    · rw [hstate]
      exact IpcState.noConfusion
    · rw [hsent]
      exact honline
    · intro ended' more
      have hopened : t.opened = true := by simp [Ipc.opened, hstate]
      rw [hreading, hopened]
      simp [transcript, hsent, Transcript.followedBy, Transcript.ofSent, Transcript.ofAnswer]
  | @pending t rest reply hle htake hended hstate honline hreading =>
    have hsent := honline.sent_eq
    have hopened : t.opened = opened := by
      rw [Ipc.opened, hstate]
      cases opened <;> rfl
    refine Or.inr ⟨rest, ⟨rfl, ?_, ?_⟩, Or.inr ⟨hle, htake, hended⟩, ?_⟩
    · rw [hstate]
      split <;> exact IpcState.noConfusion
    · rw [hsent]
      exact honline
    · intro ended' more
      rw [hreading, hopened]
      simp [transcript, hsent, Transcript.followedBy, Transcript.ofSent]
  | @failed t rest reply e honline hreading =>
    have hsent : t.close.sent = sent ++ reply := by rw [sent_close, honline.sent_eq]
    refine Or.inl ⟨rfl, ?_⟩
    intro ended' more hmore
    rw [hreading ended' more hmore]
    simp [transcript, hsent, Transcript.followedBy, Transcript.ofSent, Transcript.ofAnswer]

/-! ## Where a dialogue leads -/

/-- What the dialogue comes to if `more` octets follow, and then none if
`ended`; `hungUp` says that the peer has sent its last octet. -/
def Leads (d : Dialogue) (size : Nat) (hungUp ended : Bool) (more : Bytes) (t : Transcript) :
    Prop :=
  (d.stopped = true ∧ d.transcript = t) ∨
  ∃ stream, d.Live stream hungUp ∧ (stream ++ more).length ≤ size ∧
    d.transcript.followedBy (reading ended d.transport.opened (stream ++ more)) = t

theorem leads_call {d : Dialogue} {size : Nat} {hungUp ended : Bool} {more : Bytes}
    {t : Transcript} (h : d.Leads size hungUp ended more t)
    (hmore : hungUp = true → ended = true ∧ more = []) :
    d.call.Leads size hungUp ended more t := by
  rcases h with ⟨hstop, ht⟩ | ⟨stream, hlive, hsize, ht⟩
  · rw [Dialogue.call, if_pos hstop]
    exact Or.inl ⟨hstop, ht⟩
  · have hstep := call_of_step hlive.stopped (call_spec hlive.online hlive.state)
    rcases hstep with ⟨hstop, hend⟩ | ⟨rest, hlive', hshort, hrest⟩
    · exact Or.inl ⟨hstop, by rw [← ht, ← hend ended more hmore]; rfl⟩
    · refine Or.inr ⟨rest, hlive', ?_, by rw [← ht, ← hrest]; rfl⟩
      rw [List.length_append] at hsize ⊢
      rcases hshort with ⟨hlt, -⟩ | ⟨hle, -, -⟩ <;> omega

theorem leads_deliver {d : Dialogue} {size : Nat} {ended : Bool} {octets more : Bytes}
    {t : Transcript} (h : d.Leads size false ended (octets ++ more) t) :
    (d.deliver octets).Leads size false ended more t := by
  have hsent : (d.deliver octets).transport.sent = d.transport.sent := sent_peerSend _ octets
  have ht' : (d.deliver octets).transcript = d.transcript := by
    rw [transcript, hsent]
    rfl
  rcases h with ⟨hstop, ht⟩ | ⟨stream, hlive, hsize, ht⟩
  · exact Or.inl ⟨hstop, ht'.trans ht⟩
  · refine Or.inr ⟨stream ++ octets, ⟨hlive.stopped, hlive.state, ?_⟩, ?_, ?_⟩
    · rw [hsent]
      exact hlive.online.peerSend octets
    · rwa [List.append_assoc]
    · rw [ht', List.append_assoc]
      exact ht

theorem leads_hangUp {d : Dialogue} {size : Nat} {t : Transcript}
    (h : d.Leads size false true [] t) : d.hangUp.Leads size true true [] t := by
  have hsent : d.hangUp.transport.sent = d.transport.sent := sent_peerShut _
  have ht' : d.hangUp.transcript = d.transcript := by
    rw [transcript, hsent]
    rfl
  rcases h with ⟨hstop, ht⟩ | ⟨stream, hlive, hsize, ht⟩
  · exact Or.inl ⟨hstop, ht'.trans ht⟩
  · refine Or.inr ⟨stream, ⟨hlive.stopped, hlive.state, ?_⟩, hsize, by rw [ht']; exact ht⟩
    rw [hsent]
    exact hlive.online.peerShut

theorem leads_moves {d : Dialogue} {size : Nat} {ended : Bool} {more : Bytes} {t : Transcript}
    (moves : List Move) (h : d.Leads size false ended (delivered moves ++ more) t) :
    (moves.foldl move d).Leads size false ended more t := by
  induction moves generalizing d with
  | nil => exact h
  | cons m moves ih =>
    cases m with
    | deliver octets =>
      rw [delivered, List.append_assoc] at h
      exact ih (leads_deliver h)
    | call => exact ih (leads_call h fun hf => by cases hf)

/-! ## The end of a dialogue -/

/-- Nothing more comes of further calls. -/
def Settled (d : Dialogue) : Prop :=
  d.stopped = true ∨ ∃ stream, d.Live stream false ∧ Frame.take stream = .partly

theorem settled_call {d : Dialogue} (h : d.Settled) : d.call.Settled := by
  rcases h with hstop | ⟨stream, hlive, htake⟩
  · rw [call, if_pos hstop]
    exact Or.inl hstop
  · rcases call_of_step hlive.stopped (call_spec hlive.online hlive.state) with
      ⟨hstop, -⟩ | ⟨rest, hlive', ⟨-, hanswer⟩ | ⟨-, htake', -⟩, hrest⟩
    · exact Or.inl hstop
    · -- An answer would be one that an incomplete frame gives.
      have hsays := congrArg (fun t => t.answers.length) (hrest false [])
      rw [List.append_nil, reading_of_partly htake] at hsays
      simp only [Bool.false_eq_true, ↓reduceIte, Transcript.followedBy, Transcript.empty,
        List.append_nil, List.length_append, transcript] at hsays
      omega
    · exact Or.inr ⟨rest, hlive', htake'⟩

theorem settled_calls {d : Dialogue} (n : Nat)
    (h : d.Settled ∨ ∃ stream ended, d.Live stream ended ∧ stream.length < n) :
    (d.calls n).Settled := by
  induction n generalizing d with
  | zero =>
    rcases h with hs | ⟨stream, ended, -, hlt⟩
    · exact hs
    · exact absurd hlt (Nat.not_lt_zero _)
  | succ n ih =>
    apply ih
    rcases h with hs | ⟨stream, ended, hlive, hlt⟩
    · exact Or.inl (settled_call hs)
    · rcases call_of_step hlive.stopped (call_spec hlive.online hlive.state) with
        ⟨hstop, -⟩ | ⟨rest, hlive', ⟨hshort, -⟩ | ⟨-, htake, rfl⟩, -⟩
      · exact Or.inl (Or.inl hstop)
      · exact Or.inr ⟨rest, ended, hlive', by omega⟩
      · exact Or.inl (Or.inr ⟨rest, hlive', htake⟩)

theorem leads_calls {d : Dialogue} {size : Nat} {hungUp : Bool} {t : Transcript} (n : Nat)
    (h : d.Leads size hungUp hungUp [] t) : (d.calls n).Leads size hungUp hungUp [] t := by
  induction n generalizing d with
  | zero => exact h
  | succ n ih => exact ih (leads_call h fun hup => ⟨hup, rfl⟩)

theorem transcript_calls {d : Dialogue} {size n : Nat} {hungUp : Bool} {t : Transcript}
    (h : d.Leads size hungUp hungUp [] t) (hn : size < n) : (d.calls n).transcript = t := by
  have hsettled : (d.calls n).Settled := by
    apply settled_calls
    rcases h with ⟨hstop, -⟩ | ⟨stream, hlive, hsize, -⟩
    · exact Or.inl (Or.inl hstop)
    · rw [List.append_nil] at hsize
      exact Or.inr ⟨stream, hungUp, hlive, by omega⟩
  rcases leads_calls n h with ⟨-, ht⟩ | ⟨stream, hlive, -, ht⟩
  · exact ht
  · rcases hsettled with hstop | ⟨stream', hlive', htake⟩
    · rw [hlive.stopped] at hstop
      cases hstop
    · obtain ⟨rfl, rfl⟩ := hlive.online.unique hlive'.online
      rw [List.append_nil, reading_of_partly htake] at ht
      exact (Transcript.followedBy_empty _).symm.trans ht

/-! ## The start of a dialogue -/

/-- A link that has sent the handshake leads to what the stream says. -/
theorem leads_begun {t t' : Ipc} (h : t.state = .closed) (hb : t.begin = (.ok (), t'))
    (ended : Bool) (more : Bytes) :
    (start t).Leads (t.received.length + more.length) false ended more
      (Transcript.followedBy ⟨[], t'.sent⟩ (reading ended false (t.received ++ more))) := by
  obtain ⟨honline, hstate⟩ := begin_spec hb
  have hstep := poll_spec honline hstate
  have hcall : t.call = polled (orClose t'.poll) := by rw [call_of_closed h, hb]
  rw [← hcall] at hstep
  rw [honline.sent_eq]
  rcases call_of_step (d := { transport := t, answers := [], stopped := false }) rfl hstep with
    ⟨hstop, hend⟩ | ⟨rest, hlive, hshort, hrest⟩
  · exact Or.inl ⟨hstop, (hend ended more fun hf => by cases hf).symm⟩
  · refine Or.inr ⟨rest, hlive, ?_, (hrest ended more).symm⟩
    rw [List.length_append]
    rcases hshort with ⟨hlt, -⟩ | ⟨hle, -, -⟩ <;> omega

theorem leads_start {t : Ipc} (h : t.state = .closed) (ended : Bool) (more : Bytes) :
    ∃ result, (start t).Leads (t.received.length + more.length) false ended more result := by
  cases hb : t.begin with
  | mk result t' =>
    cases result with
    | error e =>
      have hstop : (start t).stopped = true := by
        unfold start call
        rw [if_neg Bool.false_ne_true, call_of_closed h, hb]
      exact ⟨(start t).transcript, Or.inl ⟨hstop, rfl⟩⟩
    | ok u => exact ⟨_, leads_begun h hb ended more⟩

end Dialogue

/-- **Framing does not depend on the pieces.** Two dialogues over the same closed
link in which the peer sends the same octets, in any pieces and with any calls
in between, and then either hangs up or does not, give the same answers in the
same order, up to the same error, and send the same octets, once the caller
has called often enough for all that was sent. -/
theorem pieces_do_not_matter (t : Ipc) (h : t.state = .closed) (moves moves' : List Move)
    (hsame : delivered moves = delivered moves') (hangsUp : Bool) (n n' : Nat)
    (hn : t.received.length + (delivered moves).length < n)
    (hn' : t.received.length + (delivered moves).length < n') :
    (Dialogue.whole t moves hangsUp n).transcript =
      (Dialogue.whole t moves' hangsUp n').transcript := by
  obtain ⟨result, hstart⟩ := Dialogue.leads_start h hangsUp (delivered moves)
  have hend : ∀ (moves' : List Move) (n : Nat), delivered moves' = delivered moves →
      t.received.length + (delivered moves).length < n →
      (Dialogue.whole t moves' hangsUp n).transcript = result := by
    intro moves' n hsame hn
    rw [← hsame, ← List.append_nil (delivered moves')] at hstart
    rw [← hsame, ← List.append_nil (delivered moves')] at hn
    have hmoves := Dialogue.leads_moves moves' hstart
    cases hangsUp with
    | false => exact Dialogue.transcript_calls hmoves hn
    | true => exact Dialogue.transcript_calls (Dialogue.leads_hangUp hmoves) hn
  rw [hend moves n rfl hn, hend moves' n' hsame.symm hn']

/-- A peer that says that it is ready, in two pieces or in one, and hangs up. -/
theorem ready_in_two_pieces :
    let t : Ipc := { applicationId := "1", socketPath := some "s", environment := [],
                     host := ({} : Host).listen "s" }
    let payload := Utf8.ofString "\x7b\"cmd\":\"DISPATCH\",\"evt\":\"READY\"\x7d"
    let ready := Frame.header 1 payload.length ++ payload
    let pieces := [.deliver (ready.take 3), .call, .deliver (ready.drop 3)]
    t.state = .closed ∧ delivered pieces = delivered [.deliver ready] ∧
      (Dialogue.whole t pieces true 50).answers = [.connected, .failed .pipeClosed] ∧
      (Dialogue.whole t pieces true 50).transcript =
        (Dialogue.whole t [.deliver ready] true 60).transcript := by
  intro t payload ready pieces
  have hclosed : t.state = .closed := rfl
  have hsame : delivered pieces = delivered [.deliver ready] := by decide +kernel
  refine ⟨hclosed, hsame, ?_, pieces_do_not_matter t hclosed pieces [.deliver ready] hsame true
    50 60 (by decide +kernel) (by decide +kernel)⟩
  have hbegin : t.begin = _ := begin_listening
  rw [Dialogue.whole, Dialogue.start, Dialogue.call, call_of_closed hclosed, hbegin]
  decide +kernel

end PresenceLink.Ipc
