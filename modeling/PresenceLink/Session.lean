import PresenceLink.Command
import PresenceLink.Mailbox
import PresenceLink.SendQueue

/-!
# The session

What the embedder and the link share: the send queue with the number of the
next request, the mailbox, the set of handled kinds, and whether the link is up
or shut for good.

* `submit_of_closed`, `submit_of_full`: refusals that change nothing.
-/

namespace PresenceLink

structure Session where
  queue : SendQueue
  mailbox : Mailbox
  nextNonce : UInt64
  pid : UInt32
  subscriptions : Subscriptions
  connected : Bool
  closed : Bool
  deriving DecidableEq

namespace Session

def ofSize (slots slotCapacity : Nat) (pid : UInt32) : Session where
  queue := .ofSize slots slotCapacity
  mailbox := .empty
  nextNonce := 1
  pid
  subscriptions := .empty
  connected := false
  closed := false

/-- Queue the command built for the next number. It is refused, and the result
is nothing, if the session is closed, no slot is free, or it does not fit into
a slot; the last of these uses up the number and leaves the slot abandoned. -/
def submit (s : Session) (build : UInt64 → Command) : Option Command × Session :=
  if s.closed then (none, s)
  else match s.queue.reserve with
    | none => (none, s)
    | some (r, queue) =>
      let command := build s.nextNonce
      let (buffer, result) := command.encodeInto ((queue.buffer? r).getD [])
      let queue := queue.fill r buffer
      match result with
      | .ok length =>
        (some command, { s with queue := queue.commit r length, nextNonce := s.nextNonce + 1 })
      | .error _ => (none, { s with queue := queue.abandon r, nextNonce := s.nextNonce + 1 })

def setActivity (s : Session) (activity : Option Presence) : Option Command × Session :=
  s.submit fun n => .setActivity n s.pid activity

def subscribe (s : Session) (k : Subscription) : Option Command × Session :=
  s.submit fun n => .subscribe n k

def unsubscribe (s : Session) (k : Subscription) : Option Command × Session :=
  s.submit fun n => .unsubscribe n k

/-- Submit one request for each of some kinds; the result lists those that were
queued. -/
def submitEach (request : Session → Subscription → Option Command × Session) :
    Session → List Subscription → List Command × Session
  | s, [] => ([], s)
  | s, k :: kinds =>
    let (queued, s) := request s k
    let (rest, s) := submitEach request s kinds
    (queued.toList ++ rest, s)

/-- Subscribe to every handled kind. -/
def announce (s : Session) : List Command × Session := submitEach subscribe s s.subscriptions.toList

/-- Ask for a kind of event; kinds with a handler are announced anyway. The
flag says whether the request is granted. -/
def register (s : Session) (k : Subscription) : Bool × Session :=
  if s.closed then (false, s)
  else if s.subscriptions.contains k then (true, s)
  else
    let (queued, s) := s.subscribe k
    (queued.isSome, s)

def setSubscriptions (s : Session) (subscriptions : Subscriptions) : Session :=
  { s with subscriptions }

/-- Replace the handled kinds; on a link that is up the peer is told of kinds
that are new and of kinds that are gone. -/
def resubscribe (s : Session) (next : Subscriptions) : List Command × Session :=
  let previous := s.subscriptions
  let s := s.setSubscriptions next
  if s.connected then
    let (added, s) := submitEach subscribe s (next.diff previous).toList
    let (dropped, s) := submitEach unsubscribe s (previous.diff next).toList
    (added ++ dropped, s)
  else ([], s)

def setConnected (s : Session) (connected : Bool) : Session := { s with connected }

/-- Refuse all further requests. -/
def close (s : Session) : Session := { s with closed := true }

def publishAll (s : Session) (events : List Event) : Session :=
  { s with mailbox := s.mailbox.publishAll events }

/-- Take the oldest queued message. -/
def drain (s : Session) : Option Bytes × Session :=
  let (message, queue) := s.queue.drain
  (message, { s with queue })

def describe (s : Session) : String :=
  "Shared \x7b queue: " ++ s.queue.describe ++ ", connected: " ++ toString s.connected ++
    ", subscriptions: " ++ s.subscriptions.describe ++ ", closed: " ++ toString s.closed ++ " \x7d"

theorem submit_of_closed {s : Session} (h : s.closed = true) (build : UInt64 → Command) :
    s.submit build = (none, s) := by
  rw [submit, if_pos h]

theorem submit_of_full {s : Session} (h : s.queue.slots.length ≤ s.queue.occupied)
    (build : UInt64 → Command) : s.submit build = (none, s) := by
  unfold submit
  split
  · rfl
  · rw [(SendQueue.reserve_eq_none_iff _).2 h]

/-- A request leaves all but the queue and the next number as it was. -/
theorem submit_frame (s : Session) (build : UInt64 → Command) :
    (s.submit build).2.mailbox = s.mailbox ∧ (s.submit build).2.pid = s.pid ∧
      (s.submit build).2.subscriptions = s.subscriptions ∧
      (s.submit build).2.connected = s.connected ∧ (s.submit build).2.closed = s.closed := by
  unfold submit
  split
  · exact ⟨rfl, rfl, rfl, rfl, rfl⟩
  · split
    · exact ⟨rfl, rfl, rfl, rfl, rfl⟩
    · simp only
      split <;> exact ⟨rfl, rfl, rfl, rfl, rfl⟩

theorem pending_drain {s s' : Session} {message : Bytes} (h : s.drain = (some message, s')) :
    s'.queue.pending < s.queue.pending := by
  unfold drain at h
  cases hq : s.queue.drain with
  | mk m q =>
    rw [hq] at h
    simp only [Prod.mk.injEq] at h
    obtain ⟨rfl, rfl⟩ := h
    exact SendQueue.pending_drain hq

end Session

end PresenceLink
