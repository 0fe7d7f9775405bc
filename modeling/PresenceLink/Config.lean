import PresenceLink.Backoff
import PresenceLink.Error
import PresenceLink.Text.Utf8

/-!
# Configuration

How a client is set up. The builder functions keep the queue usable; fields set
by hand are put right when the client starts.

* `validate_eq_none_iff`: the application ids that are accepted.
-/

namespace PresenceLink

/-- Whether ticks come from a thread of the library or from the embedder. -/
inductive Drive where
  | thread
  | manual
  deriving DecidableEq, Repr

structure Config where
  applicationId : String
  drive : Drive
  /-- The longest pause between two ticks of the thread. -/
  maxWait : Duration
  baseDelay : Duration
  maxDelay : Duration
  queueSlots : Nat
  maxMessageSize : Nat
  /-- The process to report; nothing stands for the running one. -/
  processId : Option UInt32
  deriving DecidableEq

namespace Config

def maxApplicationIdSize : Nat := 64

def minMessageSize : Nat := 256

def defaultMaxWait : Duration := .ofMillis 500

def ofApplicationId (applicationId : String) : Config where
  applicationId
  drive := .thread
  maxWait := defaultMaxWait
  baseDelay := Backoff.defaultBase
  maxDelay := Backoff.defaultMax
  queueSlots := 8
  maxMessageSize := 16 * 1024
  processId := none

def withDrive (c : Config) (drive : Drive) : Config := { c with drive }

def withMaxWait (c : Config) (maxWait : Duration) : Config := { c with maxWait }

def withReconnectDelays (c : Config) (baseDelay maxDelay : Duration) : Config :=
  { c with baseDelay, maxDelay }

def withQueueSlots (c : Config) (n : Nat) : Config := { c with queueSlots := Nat.max n 1 }

def withMaxMessageSize (c : Config) (n : Nat) : Config :=
  { c with maxMessageSize := Nat.max n minMessageSize }

def withProcessId (c : Config) (pid : UInt32) : Config := { c with processId := some pid }

/-- The fault of an application id, if it has one. -/
def validate (c : Config) : Option ClientError :=
  let size := (Utf8.ofString c.applicationId).length
  if size = 0 then some (.invalidApplicationId "application id must not be empty")
  else if maxApplicationIdSize < size then
    some (.invalidApplicationId ("application id is " ++ toString size ++ " bytes, at most " ++
      toString maxApplicationIdSize ++ " allowed"))
  else none

/-- The size of a slot of the send queue. -/
def slotCapacity (c : Config) : Nat := Nat.max c.maxMessageSize minMessageSize

theorem validate_eq_none_iff (c : Config) :
    c.validate = none ↔
      0 < (Utf8.ofString c.applicationId).length ∧
        (Utf8.ofString c.applicationId).length ≤ maxApplicationIdSize := by
  simp only [validate]
  split
  · simp only [reduceCtorEq, false_iff]
    omega
  · split
    · simp only [reduceCtorEq, false_iff]
      omega
    · simp only [true_iff]
      omega

end Config

end PresenceLink
