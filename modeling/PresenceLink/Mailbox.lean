import PresenceLink.Mailbox.LatestCell
import PresenceLink.Text.Fixed

/-!
# The mailbox

One cell for each kind of event keeps the latest event of that kind until it is
taken. Texts are stored in buffers of bounded size.

* `take_publish_of_ne`: kinds do not affect each other.
-/

namespace PresenceLink

/-- The largest stored text, in octets. -/
def payloadCapacity : Nat := 256

abbrev PayloadText := FixedText payloadCapacity

/-- An error as it is stored. -/
structure ErrorInfo where
  code : Int32
  message : PayloadText
  deriving DecidableEq

def ErrorInfo.ofText (code : Int32) (message : String) : ErrorInfo :=
  { code, message := .ofString message }

instance : Inhabited ErrorInfo := ⟨{ code := 0, message := .empty }⟩

inductive EventKind where
  | connected
  | disconnected
  | errored
  | presenceRequested
  | joinGame
  | spectateGame
  deriving DecidableEq, Repr

inductive Event where
  | connected
  | disconnected (code : Int32) (message : String)
  | errored (code : Int32) (message : String)
  | presenceRequested
  | joinGame (secret : String)
  | spectateGame (secret : String)
  deriving DecidableEq, Repr

def Event.kind : Event → EventKind
  | connected => .connected
  | disconnected .. => .disconnected
  | errored .. => .errored
  | presenceRequested => .presenceRequested
  | joinGame _ => .joinGame
  | spectateGame _ => .spectateGame

/-- An event as it is taken from the mailbox. -/
inductive Delivery where
  | connected
  | disconnected (info : ErrorInfo)
  | errored (info : ErrorInfo)
  | presenceRequested
  | joinGame (secret : PayloadText)
  | spectateGame (secret : PayloadText)
  deriving DecidableEq

structure Mailbox where
  connected : Bool
  disconnected : LatestCell ErrorInfo
  errored : LatestCell ErrorInfo
  presenceRequested : Bool
  joinGame : LatestCell PayloadText
  spectateGame : LatestCell PayloadText
  deriving DecidableEq

namespace Mailbox

def empty : Mailbox where
  connected := false
  disconnected := .ofValue default
  errored := .ofValue default
  presenceRequested := false
  joinGame := .ofValue default
  spectateGame := .ofValue default

/-- Overwrite a stored error. -/
def setError (code : Int32) (message : String) (info : ErrorInfo) : ErrorInfo :=
  { code, message := info.message.set message }

/-- Overwrite a stored text. -/
def setText (value : String) (t : PayloadText) : PayloadText := t.set value

/-- Store an event in place of an earlier one of its kind. -/
def publish (m : Mailbox) : Event → Mailbox
  | .connected => { m with connected := true }
  | .disconnected code message =>
    { m with disconnected := m.disconnected.publish (setError code message) }
  | .errored code message => { m with errored := m.errored.publish (setError code message) }
  | .presenceRequested => { m with presenceRequested := true }
  | .joinGame secret => { m with joinGame := m.joinGame.publish (setText secret) }
  | .spectateGame secret => { m with spectateGame := m.spectateGame.publish (setText secret) }

def publishAll (m : Mailbox) (events : List Event) : Mailbox := events.foldl publish m

/-- Take the event of a kind, if there is one. -/
def take (m : Mailbox) : EventKind → Option Delivery × Mailbox
  | .connected =>
    (if m.connected then some .connected else none, { m with connected := false })
  | .disconnected =>
    (m.disconnected.take.1.map .disconnected, { m with disconnected := m.disconnected.take.2 })
  | .errored => (m.errored.take.1.map .errored, { m with errored := m.errored.take.2 })
  | .presenceRequested =>
    (if m.presenceRequested then some .presenceRequested else none,
      { m with presenceRequested := false })
  | .joinGame => (m.joinGame.take.1.map .joinGame, { m with joinGame := m.joinGame.take.2 })
  | .spectateGame =>
    (m.spectateGame.take.1.map .spectateGame, { m with spectateGame := m.spectateGame.take.2 })

def describeSignal (raised : Bool) : String := "Signal(" ++ toString raised ++ ")"

def describeCell (fresh : Bool) : String :=
  "LatestCell \x7b ready: " ++ toString fresh ++ " \x7d"

def describe (m : Mailbox) : String :=
  "Mailbox \x7b connected: " ++ describeSignal m.connected ++
    ", disconnected: " ++ describeCell m.disconnected.fresh ++
    ", errored: " ++ describeCell m.errored.fresh ++
    ", presence_requested: " ++ describeSignal m.presenceRequested ++
    ", join_game: " ++ describeCell m.joinGame.fresh ++
    ", spectate_game: " ++ describeCell m.spectateGame.fresh ++ " \x7d"

theorem take_publish_of_ne (m : Mailbox) (e : Event) (k : EventKind) (h : e.kind ≠ k) :
    ((m.publish e).take k).1 = (m.take k).1 := by
  cases e with
  | connected =>
    cases k with
    | connected => exact absurd rfl h
    | _ => rfl
  | disconnected =>
    cases k with
    | disconnected => exact absurd rfl h
    | _ => rfl
  | errored =>
    cases k with
    | errored => exact absurd rfl h
    | _ => rfl
  | presenceRequested =>
    cases k with
    | presenceRequested => exact absurd rfl h
    | _ => rfl
  | joinGame =>
    cases k with
    | joinGame => exact absurd rfl h
    | _ => rfl
  | spectateGame =>
    cases k with
    | spectateGame => exact absurd rfl h
    | _ => rfl

end Mailbox

end PresenceLink
