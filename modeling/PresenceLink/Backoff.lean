import PresenceLink.Duration

/-!
# Delays between attempts

The delay doubles from `base` with every attempt and never exceeds the larger
of `base` and `max`; a success starts it over.

* `toNanos_grown`: one attempt doubles the delay up to the limit, in exact
  arithmetic even where doubling does not fit a `Duration`.
-/

namespace PresenceLink

structure Backoff where
  base : Duration
  limit : Duration
  current : Duration
  deriving DecidableEq, Repr

namespace Backoff

/-- Delays from `base` up to `max`, or up to `base` if that is larger. -/
def ofBounds (base max : Duration) : Backoff :=
  { base, limit := max.max base, current := base }

def defaultBase : Duration := .ofMillis 500

def defaultMax : Duration := .ofMillis 60000

/-- Half a second to a minute. -/
def standard : Backoff := ofBounds defaultBase defaultMax

/-- The delay after `current`: twice as long, capped by the limit. -/
def grown (b : Backoff) : Duration :=
  match b.current.double? with
  | some d => d.min b.limit
  | none => b.limit

/-- The delay to wait now, and the state for the next attempt. -/
def next (b : Backoff) : Duration × Backoff :=
  (b.current, { b with current := b.grown })

/-- Start over from the base delay. -/
def reset (b : Backoff) : Backoff := { b with current := b.base }

theorem toNanos_grown (b : Backoff) :
    b.grown.toNanos = Nat.min (2 * b.current.toNanos) b.limit.toNanos := by
  unfold grown
  cases h : b.current.double? with
  | some d => simp only [Duration.toNanos_min, Duration.toNanos_double? h]
  | none =>
    have hl := b.limit.toNanos_lt
    have hd := (Duration.double?_eq_none_iff _).1 h
    show b.limit.toNanos = _
    exact (Nat.min_eq_right (by omega)).symm

end Backoff

end PresenceLink
