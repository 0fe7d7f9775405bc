import PresenceLink.Error
import PresenceLink.Text.Utf8

/-!
# Transports

A transport carries whole messages to and from the peer and never waits. Its
state is a value that each operation replaces. What it holds for reading is
measured by `backlog`, which shrinks with every message read, so reading until
nothing is left comes to an end.

`Recorded` keeps the calls made on a transport, in order.

* `readAll_eq`: reading everything is reading once and then the rest.
-/

namespace PresenceLink

/-- How far an attempt to open a transport has come. -/
inductive OpenStatus where
  | connected
  | pending
  deriving DecidableEq, Repr

class Transport (τ : Type) where
  /-- Start an attempt, or go on with one that is pending. -/
  connect : τ → Except TransportError OpenStatus × τ
  close : τ → τ
  isOpen : τ → Bool
  /-- The next message, if one is there. -/
  read : τ → Except TransportError (Option Bytes) × τ
  write : τ → Bytes → Except TransportError Unit × τ
  backlog : τ → Nat
  backlog_read : ∀ (t t' : τ) (payload : Bytes),
    read t = (.ok (some payload), t') → backlog t' < backlog t

namespace Transport

variable {τ : Type} [Transport τ]

/-- All that was read until nothing was left or an error came. -/
structure Inflow (τ : Type) where
  payloads : List Bytes
  failure : Option TransportError
  transport : τ

/-- Read until nothing is left or an error comes. -/
def readAll (t : τ) : Inflow τ :=
  match _ : read t with
  | (.ok (some payload), t') =>
    let rest := readAll t'
    { rest with payloads := payload :: rest.payloads }
  | (.ok none, t') => { payloads := [], failure := none, transport := t' }
  | (.error e, t') => { payloads := [], failure := some e, transport := t' }
termination_by backlog t
decreasing_by exact backlog_read _ _ _ (by assumption)

theorem readAll_eq (t : τ) :
    readAll t = match read t with
      | (.ok (some payload), t') =>
        { readAll t' with payloads := payload :: (readAll t').payloads }
      | (.ok none, t') => { payloads := [], failure := none, transport := t' }
      | (.error e, t') => { payloads := [], failure := some e, transport := t' } := by
  rw [readAll]
  split <;> rename_i h <;> simp only [h]

end Transport

/-- A call on a transport, with its result. -/
inductive Call where
  | connect (result : Except TransportError OpenStatus)
  | close
  | read (result : Except TransportError (Option Bytes))
  | write (payload : Bytes) (result : Except TransportError Unit)

/-- A transport and the calls made on it so far. -/
structure Recorded (τ : Type) where
  inner : τ
  calls : List Call

namespace Recorded

variable {τ : Type}

def ofTransport (t : τ) : Recorded τ := { inner := t, calls := [] }

def record (t : Recorded τ) (inner : τ) (c : Call) : Recorded τ :=
  { inner, calls := t.calls ++ [c] }

instance [Transport τ] : Transport (Recorded τ) where
  connect t :=
    let (result, inner) := Transport.connect t.inner
    (result, t.record inner (.connect result))
  close t := t.record (Transport.close t.inner) .close
  isOpen t := Transport.isOpen t.inner
  read t :=
    let (result, inner) := Transport.read t.inner
    (result, t.record inner (.read result))
  write t payload :=
    let (result, inner) := Transport.write t.inner payload
    (result, t.record inner (.write payload result))
  backlog t := Transport.backlog t.inner
  backlog_read t t' payload h := by
    cases hr : Transport.read t.inner with
    | mk result inner =>
      simp only [hr, Prod.mk.injEq] at h
      obtain ⟨rfl, rfl⟩ := h
      exact Transport.backlog_read _ _ _ hr

end Recorded

namespace Call

/-- The payload that a call put on the wire. -/
def sent? : Call → Option Bytes
  | write payload (.ok _) => some payload
  | _ => none

end Call

end PresenceLink
