import PresenceLink.Ipc.Place
import PresenceLink.Text.Utf8

/-!
# Local sockets

The sockets of one machine as a client sees them: names that are listened on,
names that are left over, and the latest connection with one stream of octets
in each direction.

* `stream?_eq_some_iff`: a client has a stream until it hangs up;
* `unread_receive`, `unread_send`: reading takes octets off what is unread,
  writing does not touch it.
-/

namespace PresenceLink

/-- A connection between a client and the peer. -/
structure Connection where
  /-- The name it was made by. -/
  path : String
  /-- Sent by the peer, not yet read by the client. -/
  incoming : Bytes := []
  /-- Sent by the client, not yet read by the peer. -/
  outgoing : Bytes := []
  /-- The peer sends no more. -/
  ended : Bool := false
  /-- The peer reads no more. -/
  deaf : Bool := false
  /-- The client has closed its end. -/
  hungUp : Bool := false
  /-- The peer has taken note of the connection. -/
  accepted : Bool := false
  deriving DecidableEq, Repr

/-- Why a name cannot be reached. -/
inductive ConnectFault where
  | notFound
  | refused
  /-- A socket stands where a directory should be. -/
  | notDirectory
  | empty
  | tooLong
  | zeroOctet
  deriving DecidableEq, Repr

def ConnectFault.detail : ConnectFault → String
  | notFound => "No such file or directory (os error 2)"
  | refused => "Connection refused (os error 111)"
  | notDirectory => "Not a directory (os error 20)"
  | empty => "Invalid argument (os error 22)"
  | tooLong => "path must be shorter than SUN_LEN"
  | zeroOctet => "paths must not contain interior null bytes"

/-- A socket and the name it was bound by. -/
structure Binding where
  path : String
  place : Place
  listening : Bool
  deriving DecidableEq, Repr

/-- The directory for files that are not kept. -/
def temporaryDirectory : String := "/tmp"

structure Host where
  bindings : List Binding := []
  /-- Directories that are known: that for temporary files, and those on the way
  to a socket. -/
  directories : List Place := [Place.ofName temporaryDirectory]
  connection : Option Connection := none
  deriving DecidableEq, Repr

/-- What reading from a connection gives. -/
inductive Received where
  | octets (bytes : Bytes)
  | nothingYet
  | ended
  deriving DecidableEq, Repr

namespace Host

/-- The longest name of a socket, and one more. -/
def pathLimit : Nat := 108

/-- The socket at a place. -/
def binding? (h : Host) (p : Place) : Option Binding := h.bindings.find? fun b => b.place = p

/-- Where names start there is a directory. -/
def isDirectory (h : Host) (p : Place) : Bool := p.down.isEmpty || h.directories.contains p

/-- Follow the parts of a name. Each step needs a directory to leave. -/
def follow (h : Host) (p : Place) : List String → Except ConnectFault Place
  | [] => .ok p
  | part :: rest =>
    if h.isDirectory p then h.follow (p.enter part) rest
    else if (h.binding? p).isSome then .error .notDirectory
    else .error .notFound

/-! ## The side of the client -/

/-- Connect to a name. The new connection takes the place of an older one. -/
def connect (h : Host) (path : String) : Except ConnectFault Host :=
  let octets := Utf8.ofString path
  if octets.contains 0 then .error .zeroOctet
  else if pathLimit ≤ octets.length then .error .tooLong
  else if octets.isEmpty then .error .empty
  else match h.follow (Place.start path) (Place.parts path) with
    | .error fault => .error fault
    | .ok p =>
      match h.binding? p with
      | some b =>
        if b.listening then .ok { h with connection := some { path := b.path } }
        else .error .refused
      | none => .error (if h.isDirectory p then .refused else .notFound)

/-- The connection as long as the client has not closed it. -/
def stream? (h : Host) : Option Connection := h.connection.filter fun c => !c.hungUp

/-- Read at most a given number of octets. -/
def receive (h : Host) (most : Nat) : Received × Host :=
  match h.stream? with
  | none => (.ended, h)
  | some c =>
    if c.incoming.isEmpty then (if c.ended then .ended else .nothingYet, h)
    else
      (.octets (c.incoming.take most),
        { h with connection := some { c with incoming := c.incoming.drop most } })

/-- Write octets; nothing if the peer reads no more. -/
def send (h : Host) (bytes : Bytes) : Option Host :=
  match h.stream? with
  | none => none
  | some c =>
    if c.deaf then none
    else some { h with connection := some { c with outgoing := c.outgoing ++ bytes } }

def hangUp (h : Host) : Host :=
  { h with connection := h.connection.map fun c => { c with hungUp := true } }

/-- Octets that the client can still read. -/
def unread (h : Host) : Nat :=
  match h.stream? with
  | none => 0
  | some c => c.incoming.length

/-! ## The side of the peer -/

/-- Listen on a name, in place of what was bound there before. -/
def listen (h : Host) (path : String) : Host :=
  let p := Place.ofName path
  { h with
    bindings := { path, place := p, listening := true } :: h.bindings.filter fun b => b.place ≠ p,
    directories := Place.passed path ++ h.directories }

/-- Stop listening on a name; the socket is left over. -/
def unlisten (h : Host) (path : String) : Host :=
  { h with
    bindings := h.bindings.map fun b => if b.path = path then { b with listening := false } else b }

/-- Send octets to a client that is still there. -/
def peerSend (h : Host) (bytes : Bytes) : Host :=
  { h with
    connection := h.connection.map fun c =>
      if c.hungUp || c.ended then c else { c with incoming := c.incoming ++ bytes } }

/-- Close the peer's end for good. -/
def peerClose (h : Host) : Host :=
  { h with connection := h.connection.map fun c => { c with ended := true, deaf := true } }

/-- Close the peer's end for sending only. -/
def peerShut (h : Host) : Host :=
  { h with connection := h.connection.map fun c => { c with ended := true } }

/-- The name of a connection that the peer has not yet taken note of. -/
def accept (h : Host) : Option String × Host :=
  match h.connection with
  | none => (none, h)
  | some c =>
    (if c.accepted then none else some c.path,
      { h with connection := some { c with accepted := true } })

/-- All that the client has sent and the peer has not yet read. -/
def peerReceive (h : Host) : Bytes × Host :=
  match h.connection with
  | none => ([], h)
  | some c => (c.outgoing, { h with connection := some { c with outgoing := [] } })

/-! ## Laws -/

theorem stream?_eq_some_iff {h : Host} {c : Connection} :
    h.stream? = some c ↔ h.connection = some c ∧ c.hungUp = false := by
  simp [stream?, Option.filter_eq_some_iff]

theorem stream?_of_connection {h : Host} {c : Connection} (hc : h.connection = some c)
    (hh : c.hungUp = false) : h.stream? = some c := stream?_eq_some_iff.2 ⟨hc, hh⟩

theorem unread_of_stream {h : Host} {c : Connection} (hc : h.stream? = some c) :
    h.unread = c.incoming.length := by
  simp only [unread, hc]

theorem stream?_hangUp (h : Host) : h.hangUp.stream? = none := by
  unfold stream? hangUp
  cases h.connection <;> simp

/-- Each read that gives octets takes them off what is unread. -/
theorem unread_receive {h h' : Host} {most : Nat} {bytes : Bytes} (hm : 0 < most)
    (hr : h.receive most = (.octets bytes, h')) :
    h'.unread + bytes.length = h.unread ∧ 0 < bytes.length := by
  unfold receive at hr
  split at hr
  · cases hr
  · rename_i c hc
    split at hr
    · split at hr <;> cases hr
    · rename_i he
      simp only [Prod.mk.injEq, Received.octets.injEq] at hr
      obtain ⟨rfl, rfl⟩ := hr
      have hpos : 0 < c.incoming.length := by
        cases hi : c.incoming with
        | nil => simp [hi] at he
        | cons x xs => simp
      rw [unread_of_stream hc, unread_of_stream (stream?_of_connection rfl
        (by exact (stream?_eq_some_iff.1 hc).2))]
      simp only [List.length_drop, List.length_take]
      omega

/-- Writing does not touch what is unread. -/
theorem unread_send {h h' : Host} {bytes : Bytes} (hs : h.send bytes = some h') :
    h'.unread = h.unread := by
  unfold send at hs
  split at hs
  · cases hs
  · rename_i c hc
    split at hs
    · cases hs
    · cases hs
      rw [unread_of_stream hc, unread_of_stream (stream?_of_connection rfl
        (by exact (stream?_eq_some_iff.1 hc).2))]

end Host

end PresenceLink
