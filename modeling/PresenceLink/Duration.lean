/-!
# Spans of time

A `Duration` is a whole number of seconds below `2 ^ 64` and a remainder in
nanoseconds. `toNanos` is the view every law is stated on.

* `le_iff_toNanos`: the order compares total nanoseconds;
* `toNanos_double?`, `double?_eq_none_iff`: doubling with a carry is doubling
  of the total, and fails exactly past the largest span;
* `toNanos_min`, `toNanos_max`.
-/

namespace PresenceLink

structure Duration where
  seconds : Nat
  nanos : Nat
  seconds_lt : seconds < 18446744073709551616 := by omega
  nanos_lt : nanos < 1000000000 := by omega
  deriving DecidableEq, Repr

namespace Duration

def zero : Duration := { seconds := 0, nanos := 0 }

def longest : Duration := { seconds := 18446744073709551615, nanos := 999999999 }

instance : Inhabited Duration := ⟨zero⟩

/-- The span of `s` seconds and `n` nanoseconds, if that is one. -/
def ofParts? (s n : Nat) : Option Duration :=
  if h : s < 18446744073709551616 ∧ n < 1000000000 then some ⟨s, n, h.1, h.2⟩ else none

/-- The span of `ms` milliseconds, if it is not too long. -/
def ofMillis? (ms : Nat) : Option Duration :=
  ofParts? (ms / 1000) (ms % 1000 * 1000000)

/-- The span of `ms` milliseconds, or the longest one. -/
def ofMillis (ms : Nat) : Duration := (ofMillis? ms).getD longest

/-- The whole span in nanoseconds. -/
def toNanos (d : Duration) : Nat := d.seconds * 1000000000 + d.nanos

/-- Shorter or equal: seconds first, then nanoseconds. -/
def le (a b : Duration) : Bool :=
  a.seconds < b.seconds || (a.seconds == b.seconds && a.nanos ≤ b.nanos)

def min (a b : Duration) : Duration := if a.le b then a else b

def max (a b : Duration) : Duration := if a.le b then b else a

/-- Twice the span, or nothing if the seconds no longer fit. -/
def double? (d : Duration) : Option Duration :=
  ofParts? (2 * d.seconds + 2 * d.nanos / 1000000000) (2 * d.nanos % 1000000000)

theorem le_iff_toNanos (a b : Duration) : a.le b = true ↔ a.toNanos ≤ b.toNanos := by
  have ha := a.nanos_lt
  have hb := b.nanos_lt
  simp only [le, toNanos, Bool.or_eq_true, Bool.and_eq_true, decide_eq_true_eq, beq_iff_eq]
  omega

theorem toNanos_min (a b : Duration) : (a.min b).toNanos = Nat.min a.toNanos b.toNanos := by
  unfold min
  by_cases h : a.le b = true
  · rw [if_pos h]
    exact (Nat.min_eq_left ((le_iff_toNanos a b).1 h)).symm
  · rw [if_neg h]
    rw [le_iff_toNanos] at h
    exact (Nat.min_eq_right (by omega)).symm

theorem toNanos_max (a b : Duration) : (a.max b).toNanos = Nat.max a.toNanos b.toNanos := by
  unfold max
  by_cases h : a.le b = true
  · rw [if_pos h]
    exact (Nat.max_eq_right ((le_iff_toNanos a b).1 h)).symm
  · rw [if_neg h]
    rw [le_iff_toNanos] at h
    exact (Nat.max_eq_left (by omega)).symm

theorem toNanos_lt (d : Duration) : d.toNanos < 18446744073709551616 * 1000000000 := by
  have hs := d.seconds_lt
  have hn := d.nanos_lt
  simp only [toNanos]
  omega

theorem toNanos_double? {d e : Duration} (h : d.double? = some e) :
    e.toNanos = 2 * d.toNanos := by
  unfold double? ofParts? at h
  split at h
  · cases h
    simp only [toNanos]
    omega
  · cases h

theorem double?_eq_none_iff (d : Duration) :
    d.double? = none ↔ 18446744073709551616 * 1000000000 ≤ 2 * d.toNanos := by
  have hn := d.nanos_lt
  unfold double? ofParts?
  split
  · rename_i h
    simp only [toNanos, reduceCtorEq, false_iff]
    omega
  · rename_i h
    simp only [toNanos, true_iff]
    have : 2 * d.nanos % 1000000000 < 1000000000 := Nat.mod_lt _ (by decide)
    omega

end Duration

end PresenceLink
