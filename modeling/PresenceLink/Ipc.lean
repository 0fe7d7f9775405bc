import PresenceLink.Inbound
import PresenceLink.Ipc.Frame
import PresenceLink.Ipc.Host
import PresenceLink.Json.Value
import PresenceLink.Text.Quoted
import PresenceLink.Transport

/-!
# The transport over a local socket

Opening connects to the first name that can be reached, sends a handshake and
waits until the peer is ready. Messages then travel as frames; pings are
answered and closing frames end the link. After any error the link is closed
and nothing of it is kept.

* `backlog_nextFrame`, `backlog_answer`: every frame taken shortens what is
  there to read;
* `received_close`, `frame_close`, `hasStream_close`: nothing is kept of a link
  that is closed.
-/

namespace PresenceLink

inductive IpcState where
  | closed
  /-- Connected, but the peer is not yet ready. -/
  | handshaking
  | ready
  deriving DecidableEq, Repr

def IpcState.describe : IpcState → String
  | closed => "Closed"
  | handshaking => "Handshaking"
  | ready => "Open"

structure Ipc where
  applicationId : String
  /-- The name to connect to; nothing stands for the usual names. -/
  socketPath : Option String
  /-- The variables of the environment. -/
  environment : List (String × String)
  host : Host
  state : IpcState := .closed
  /-- Octets received and not yet taken as frames. -/
  received : Bytes := []
  /-- The payload of the frame taken last. -/
  frame : Bytes := []
  deriving DecidableEq, Repr

namespace Ipc

/-- The most octets read at once. -/
def readChunk : Nat := 4096

/-- The variables that may name the directory of the sockets, first choice
first. -/
def directoryVariables : List String := ["XDG_RUNTIME_DIR", "TMPDIR", "TMP", "TEMP"]

def socketNames : List String := (List.range 10).map fun n => "discord-ipc-" ++ toString n

/-- A name inside a directory. -/
def joinPath (directory name : String) : String :=
  if directory.isEmpty || directory.endsWith "/" then directory ++ name
  else directory ++ "/" ++ name

/-- The directory of the sockets: the first variable that is set, even to
nothing. -/
def directory (t : Ipc) : String :=
  (directoryVariables.findSome? fun v => t.environment.lookup v).getD temporaryDirectory

def candidates (t : Ipc) : List String :=
  match t.socketPath with
  | some path => [path]
  | none => socketNames.map (joinPath t.directory)

/-- Octets that are there to be read. -/
def backlog (t : Ipc) : Nat := t.received.length + t.host.unread

/-! ## Frames -/

/-- Take the next frame, reading from the connection as long as none is
complete. -/
def nextFrame (t : Ipc) : Except TransportError (Option Opcode) × Ipc :=
  match Frame.take t.received with
  | .frame f rest => (.ok (some f.opcode), { t with frame := f.payload, received := rest })
  | .corrupt e => (.error e, t)
  | .partly =>
    match _ : t.host.receive readChunk with
    | (.octets bytes, host) => nextFrame { t with host, received := t.received ++ bytes }
    | (.nothingYet, _) => (.ok none, t)
    | (.ended, _) => (.error .pipeClosed, t)
termination_by t.host.unread
decreasing_by
  have := Host.unread_receive (show 0 < readChunk by decide) (by assumption)
  omega

theorem backlog_nextFrame {t t' : Ipc} {o : Opcode} (h : t.nextFrame = (.ok (some o), t')) :
    t'.backlog < t.backlog := by
  fun_induction nextFrame t with
  | case1 t f rest hf =>
    cases h
    have := Frame.take_frame_shorter hf
    simp only [backlog, Frame.headerSize] at *
    omega
  | case2 => cases h
  | case3 t hf bytes host hr ih =>
    have hlt := ih h
    have := Host.unread_receive (show 0 < readChunk by decide) hr
    simp only [backlog, List.length_append] at *
    omega
  | case4 => cases h
  | case5 => cases h

/-- Write a frame; a payload that is too large, or a peer that is gone, is an
error. -/
def writeFrame (t : Ipc) (f : Frame) : Except TransportError Unit × Ipc :=
  match f.encode? with
  | none => (.error (Frame.tooLarge f.payload.length), t)
  | some bytes =>
    match t.host.send bytes with
    | none => (.error .pipeClosed, t)
    | some host => (.ok (), { t with host })

/-- The error that a closing frame stands for. -/
def farewellError (payload : Bytes) : TransportError :=
  let farewell := Farewell.ofPayload payload
  { code := farewell.code.getD ErrorCode.abnormalClose.code,
    message := farewell.message.getD "connection closed by peer" }

/-- Deal with a frame that carries no message. -/
def answer (t : Ipc) (o : Opcode) : Except TransportError Unit × Ipc :=
  match o with
  | .ping => t.writeFrame { opcode := .pong, payload := t.frame }
  | .pong => (.ok (), t)
  | .close => (.error (farewellError t.frame), t)
  | .handshake | .frame => (.error (.readCorrupt ("unexpected " ++ o.name ++ " frame")), t)

theorem backlog_writeFrame (t : Ipc) (f : Frame) : (t.writeFrame f).2.backlog = t.backlog := by
  unfold writeFrame
  split
  · rfl
  · split
    · rfl
    · rename_i hs
      simp only [backlog, Host.unread_send hs]

theorem backlog_answer (t : Ipc) (o : Opcode) : (t.answer o).2.backlog = t.backlog := by
  cases o with
  | ping => exact backlog_writeFrame _ _
  | _ => rfl

/-- The payload of the next message; other frames are dealt with on the way. -/
def nextMessage (t : Ipc) : Except TransportError (Option Bytes) × Ipc :=
  match _hn : t.nextFrame with
  | (.error e, t) => (.error e, t)
  | (.ok none, t) => (.ok none, t)
  | (.ok (some .frame), t) => (.ok (some t.frame), t)
  | (.ok (some o), t') =>
    match _ha : t'.answer o with
    | (.error e, t) => (.error e, t)
    | (.ok _, t'') => nextMessage t''
termination_by t.backlog
decreasing_by
  have h1 := backlog_nextFrame _hn
  have h2 := backlog_answer t' o
  rw [_ha] at h2
  simp only at h2
  omega

theorem backlog_nextMessage {t t' : Ipc} {payload : Bytes}
    (h : t.nextMessage = (.ok (some payload), t')) : t'.backlog < t.backlog := by
  fun_induction nextMessage t with
  | case1 => cases h
  | case2 => cases h
  | case3 t t₁ hn =>
    cases h
    exact backlog_nextFrame hn
  | case4 => cases h
  | case5 t o t₁ ho hn r t₂ ha ih =>
    have h1 := backlog_nextFrame hn
    have h2 := backlog_answer t₁ o
    rw [ha] at h2
    have h3 := ih h
    simp only at h2
    omega

/-! ## Opening -/

/-- Connect to the first of some names that can be reached; the fault is that
of the last one. -/
def reach (h : Host) (last : Option ConnectFault) : List String → Except (Option ConnectFault) Host
  | [] => .error last
  | path :: paths =>
    match h.connect path with
    | .ok h => .ok h
    | .error fault => reach h (some fault) paths

/-- The payload of the handshake. -/
def greeting (applicationId : String) : Bytes :=
  (Json.Value.object [("v", .number 1), ("client_id", .text applicationId)]).render

def unreachable (fault : ConnectFault) : TransportError :=
  { code := ErrorCode.pipeClosed.code,
    message := "no IPC socket accepted the connection: " ++ fault.detail }

/-- Connect and send the handshake. -/
def begin (t : Ipc) : Except TransportError Unit × Ipc :=
  match reach t.host none t.candidates with
  | .error (some fault) => (.error (unreachable fault), t)
  | .error none => (.error .pipeClosed, t)
  | .ok host =>
    match { t with host }.writeFrame
        { opcode := .handshake, payload := greeting t.applicationId } with
    | (.error e, t) => (.error e, t)
    | (.ok _, t) => (.ok (), { t with state := .handshaking })

/-- The peer says that it is ready. -/
def isReady (payload : Bytes) : Bool :=
  match InboundMessage.parse payload with
  | .ok m => m.command = some "DISPATCH" ∧ m.event = some "READY"
  | .error _ => false

/-- Wait for the peer to be ready; messages before that are dropped. -/
def poll (t : Ipc) : Except TransportError OpenStatus × Ipc :=
  match _hn : t.nextMessage with
  | (.error e, t) => (.error e, t)
  | (.ok none, t) => (.ok .pending, t)
  | (.ok (some payload), t') =>
    if isReady payload then (.ok .connected, { t' with state := .ready }) else poll t'
termination_by t.backlog
decreasing_by exact backlog_nextMessage _hn

/-! ## The transport -/

def close (t : Ipc) : Ipc :=
  { t with host := t.host.hangUp, state := .closed, received := [], frame := [] }

/-- Close the link if something went wrong. -/
def orClose {α : Type} : Except TransportError α × Ipc → Except TransportError α × Ipc
  | (.error e, t) => (.error e, t.close)
  | (.ok a, t) => (.ok a, t)

def connect (t : Ipc) : Except TransportError OpenStatus × Ipc :=
  match t.state with
  | .ready => (.ok .connected, t)
  | .handshaking => orClose t.poll
  | .closed =>
    match t.begin with
    | (.error e, t) => (.error e, t.close)
    | (.ok _, t) => orClose t.poll

def hasStream (t : Ipc) : Bool := t.host.stream?.isSome

def isOpen (t : Ipc) : Bool := t.state = .ready && t.hasStream

def read (t : Ipc) : Except TransportError (Option Bytes) × Ipc :=
  match t.state with
  | .ready => orClose t.nextMessage
  | _ => (.ok none, t)

def write (t : Ipc) (payload : Bytes) : Except TransportError Unit × Ipc :=
  if t.isOpen then orClose (t.writeFrame { opcode := .frame, payload }) else (.error .pipeClosed, t)

instance : Transport Ipc where
  connect := connect
  close := close
  isOpen := isOpen
  read := read
  write := write
  backlog := backlog
  backlog_read t t' payload h := by
    unfold read at h
    split at h
    · cases hn : t.nextMessage with
      | mk result t₁ =>
        rw [hn] at h
        cases result with
        | error e => simp [orClose] at h
        | ok p =>
          simp only [orClose, Prod.mk.injEq, Except.ok.injEq] at h
          obtain ⟨rfl, rfl⟩ := h
          exact backlog_nextMessage hn
    · simp at h

def describe (t : Ipc) : String :=
  "IpcTransport \x7b application_id: " ++ Quoted.text t.applicationId ++ ", socket_path: " ++
    (match t.socketPath with
      | some path => "Some(" ++ Quoted.text path ++ ")"
      | none => "None") ++
    ", state: " ++ t.state.describe ++ " \x7d"

theorem received_close (t : Ipc) : t.close.received = [] := rfl

theorem frame_close (t : Ipc) : t.close.frame = [] := rfl

theorem hasStream_close (t : Ipc) : t.close.hasStream = false := by
  simp [close, hasStream, Host.stream?_hangUp]

end Ipc

end PresenceLink
