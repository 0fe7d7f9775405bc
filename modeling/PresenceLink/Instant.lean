import PresenceLink.Duration

/-!
# Points in time

An `Instant` counts seconds below `2 ^ 63` and nanoseconds from a fixed but
unknown zero, so a sum can be out of range.

* `toNanos_add?`, `add?_eq_none_iff`: a sum is exact, and missing exactly when
  its seconds do not fit.
-/

namespace PresenceLink

structure Instant where
  seconds : Nat
  nanos : Nat
  seconds_lt : seconds < 9223372036854775808 := by omega
  nanos_lt : nanos < 1000000000 := by omega
  deriving Repr

namespace Instant

def zero : Instant := { seconds := 0, nanos := 0, nanos_lt := Duration.zero.nanos_lt }

/-- The point at `s` seconds and `n` nanoseconds, if the clock reaches it. -/
def ofParts? (s n : Nat) : Option Instant :=
  if h : s < 9223372036854775808 ∧ n < 1000000000 then some ⟨s, n, h.1, h.2⟩ else none

def toNanos (t : Instant) : Nat := t.seconds * 1000000000 + t.nanos

/-- Earlier or equal: seconds first, then nanoseconds. -/
def le (a b : Instant) : Bool :=
  a.seconds < b.seconds || (a.seconds == b.seconds && a.nanos ≤ b.nanos)

/-- The point `d` after `t`, or nothing past the clock's range. -/
def add? (t : Instant) (d : Duration) : Option Instant :=
  ofParts? (t.seconds + d.seconds + (t.nanos + d.nanos) / 1000000000)
    ((t.nanos + d.nanos) % 1000000000)

/-- The span from `origin` to `t`, zero if `t` is earlier. -/
def since (t origin : Instant) : Duration :=
  let n := t.toNanos - origin.toNanos
  (Duration.ofParts? (n / 1000000000) (n % 1000000000)).getD .zero

theorem toNanos_injective {a b : Instant} (h : a.toNanos = b.toNanos) : a = b := by
  have ha := a.nanos_lt
  have hb := b.nanos_lt
  cases a; cases b
  simp only [toNanos, mk.injEq] at *
  omega

instance : DecidableEq Instant := fun a b =>
  decidable_of_iff (a.toNanos = b.toNanos) ⟨toNanos_injective, congrArg toNanos⟩

theorem le_iff_toNanos (a b : Instant) : a.le b = true ↔ a.toNanos ≤ b.toNanos := by
  have ha := a.nanos_lt
  have hb := b.nanos_lt
  simp only [le, toNanos, Bool.or_eq_true, Bool.and_eq_true, decide_eq_true_eq, beq_iff_eq]
  omega

theorem toNanos_add? {t u : Instant} {d : Duration} (h : t.add? d = some u) :
    u.toNanos = t.toNanos + d.toNanos := by
  unfold add? ofParts? at h
  split at h
  · cases h
    simp only [toNanos, Duration.toNanos]
    omega
  · cases h

theorem add?_eq_none_iff (t : Instant) (d : Duration) :
    t.add? d = none ↔ 9223372036854775808 * 1000000000 ≤ t.toNanos + d.toNanos := by
  have ht := t.nanos_lt
  have hd := d.nanos_lt
  have hm : (t.nanos + d.nanos) % 1000000000 < 1000000000 := Nat.mod_lt _ (by decide)
  unfold add? ofParts?
  split
  · rename_i h
    simp only [toNanos, Duration.toNanos, reduceCtorEq, false_iff]
    omega
  · rename_i h
    simp only [toNanos, Duration.toNanos, true_iff]
    omega

end Instant

end PresenceLink
