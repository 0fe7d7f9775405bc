import PresenceLink.Mailbox
import PresenceLink.Subscription

/-!
# Handlers

A registry holds at most one handler for each kind of event; a handler turns
its event into an action of the embedder. Running the registry empties the
mailbox in a fixed order and gives the actions of the handlers that are there.

* `contains_subscriptions`: the registry subscribes to the kinds it handles.
-/

namespace PresenceLink

structure Handlers (α : Type) where
  ready : Option α := none
  disconnected : Option (Int32 → String → α) := none
  errored : Option (Int32 → String → α) := none
  presenceRequested : Option α := none
  joinGame : Option (String → α) := none
  spectateGame : Option (String → α) := none

namespace Handlers

variable {α : Type}

/-- The registry without handlers. -/
def empty : Handlers α := {}

/-- Whether there is a handler for a kind that can be subscribed to. -/
def handles (h : Handlers α) : Subscription → Bool
  | .presenceRequested => h.presenceRequested.isSome
  | .joinGame => h.joinGame.isSome
  | .spectateGame => h.spectateGame.isSome

def subscriptions (h : Handlers α) : Subscriptions :=
  .ofList (Subscription.all.filter h.handles)

/-- The action for an event, if it is handled. -/
def call (h : Handlers α) : Delivery → Option α
  | .connected => h.ready
  | .disconnected info => h.disconnected.map fun f => f info.code info.message.text
  | .errored info => h.errored.map fun f => f info.code info.message.text
  | .presenceRequested => h.presenceRequested
  | .joinGame secret => h.joinGame.map fun f => f secret.text
  | .spectateGame secret => h.spectateGame.map fun f => f secret.text

/-- The order in which kinds are dispatched. A loss comes before the connection
that followed it. -/
def dispatchOrder : List EventKind :=
  [.errored, .disconnected, .connected, .presenceRequested, .joinGame, .spectateGame]

/-- Take the events of some kinds and call their handlers; an event without a
handler is taken all the same. -/
def runKinds (h : Handlers α) : List EventKind → Mailbox → List α × Mailbox
  | [], m => ([], m)
  | k :: kinds, m =>
    let (delivery, m) := m.take k
    let (actions, m) := h.runKinds kinds m
    ((delivery.bind h.call).toList ++ actions, m)

def run (h : Handlers α) (m : Mailbox) : List α × Mailbox := h.runKinds dispatchOrder m

def describe (h : Handlers α) : String :=
  "EventHandlers \x7b ready: " ++ toString h.ready.isSome ++
    ", disconnected: " ++ toString h.disconnected.isSome ++
    ", errored: " ++ toString h.errored.isSome ++
    ", presence_requested: " ++ toString h.presenceRequested.isSome ++
    ", join_game: " ++ toString h.joinGame.isSome ++
    ", spectate_game: " ++ toString h.spectateGame.isSome ++ " \x7d"

theorem contains_subscriptions (h : Handlers α) (k : Subscription) :
    h.subscriptions.contains k = h.handles k := by
  rw [subscriptions, Subscriptions.contains_ofList]
  simp [Subscription.mem_all]

end Handlers

end PresenceLink
