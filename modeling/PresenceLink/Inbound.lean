import PresenceLink.Json.Choice
import PresenceLink.Json.Record
import PresenceLink.Subscription

/-!
# Messages of the peer

A message names a command, an event, the number of the request it answers and
data. `classify` says which event of the library it carries, if any.
-/

namespace PresenceLink

structure InboundData where
  code : Option Int32 := none
  message : Option String := none
  secret : Option String := none
  deriving DecidableEq, Repr

structure InboundMessage where
  command : Option String := none
  event : Option String := none
  nonce : Option String := none
  data : Option InboundData := none
  deriving DecidableEq, Repr

/-- What a message tells the embedder. -/
inductive InboundEvent where
  | error (code : Int32) (message : String)
  | presenceRequested
  | joinGame (secret : String)
  | spectateGame (secret : String)
  deriving DecidableEq, Repr

/-- Why a message tells nothing: it answers a request, its event is not known,
or it lacks what its event needs. -/
inductive Skipped where
  | response
  | unrouted
  | malformed
  deriving DecidableEq, Repr

open Json

def InboundData.shape : List (String × Shape) :=
  [("code", .int32), ("message", .text), ("secret", .text)]

def InboundData.ofEntries (entries : List (Option Field)) : InboundData where
  code := Field.int32? (entries.getD 0 none)
  message := Field.text? (entries.getD 1 none)
  secret := Field.text? (entries.getD 2 none)

namespace InboundMessage

def shape : List (String × Shape) :=
  [("cmd", .text), ("evt", .text), ("nonce", .text), ("data", .record InboundData.shape)]

def ofEntries (entries : List (Option Field)) : InboundMessage where
  command := Field.text? (entries.getD 0 none)
  event := Field.text? (entries.getD 1 none)
  nonce := Field.text? (entries.getD 2 none)
  data := (Field.entries? (entries.getD 3 none)).map InboundData.ofEntries

def parse (payload : Bytes) : Except Fault InboundMessage :=
  (readRecord shape payload).map ofEntries

/-- The event that reports a failed request. -/
def errorEvent : String := "ERROR"

/-- A message with a number answers a request and only matters if it reports an
error; one without is an event by its name. -/
def classify (m : InboundMessage) : Except Skipped InboundEvent :=
  match m.nonce with
  | some _ =>
    if m.event = some errorEvent then
      match m.data.bind (·.code), m.data.bind (·.message) with
      | some code, some message => .ok (.error code message)
      | _, _ => .error .malformed
    else .error .response
  | none =>
    match m.event with
    | none => .error .malformed
    | some name =>
      match Subscription.ofWireName? name with
      | none => .error .unrouted
      | some .presenceRequested => .ok .presenceRequested
      | some .joinGame =>
        match m.data.bind (·.secret) with
        | some secret => .ok (.joinGame secret)
        | none => .error .malformed
      | some .spectateGame =>
        match m.data.bind (·.secret) with
        | some secret => .ok (.spectateGame secret)
        | none => .error .malformed

/-- The event in a payload, if it can be read and carries one. -/
def eventOf? (payload : Bytes) : Option InboundEvent :=
  match parse payload with
  | .error _ => none
  | .ok m =>
    match m.classify with
    | .error _ => none
    | .ok event => some event

end InboundMessage

/-- Read a kind of event, written as a choice of the wire names. -/
def Subscription.parse (bytes : Bytes) : Except Fault Subscription :=
  match readChoice (Subscription.all.map Subscription.wireName) bytes with
  | .error e => .error e
  | .ok name =>
    match Subscription.ofWireName? name with
    | some kind => .ok kind
    | none => .error .mismatch

/-- What the peer says when it closes the link. -/
structure Farewell where
  code : Option Int32 := none
  message : Option String := none
  deriving DecidableEq, Repr

namespace Farewell

def shape : List (String × Shape) := [("code", .int32), ("message", .text)]

/-- Read the payload of a closing frame; one that cannot be read says nothing. -/
def ofPayload (payload : Bytes) : Farewell :=
  match readRecord shape payload with
  | .error _ => {}
  | .ok entries =>
    { code := Field.int32? (entries.getD 0 none), message := Field.text? (entries.getD 1 none) }

end Farewell

end PresenceLink
