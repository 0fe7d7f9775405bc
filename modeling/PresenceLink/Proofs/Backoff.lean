import Mathlib.Algebra.Group.Nat.Defs
import Mathlib.Data.List.DropRight
import Mathlib.Data.List.Induction
import PresenceLink.Backoff

/-!
# Delays in exact arithmetic

After `n` delays the next one is the base delay doubled `n` times, or the larger
of the base delay and the limit if that is less. A delay is kept in seconds and
nanoseconds, and doubling it may need more seconds than there are; the delay is
the exact one all the same.

* `delayAfter`, `Paced`: the delay behind a number of delays;
* `paced_run`: that number, by the requests since the last reset;
* `pairwise_delays`: delays do not decrease until the next reset;
* `delays_double_to_limit`: the delay at any point of a run.
-/

namespace PresenceLink.Backoff

/-- The nanoseconds to wait after `n` delays. -/
def delayAfter (base highest : Duration) (n : Nat) : Nat :=
  min (base.toNanos * 2 ^ n) (max base.toNanos highest.toNanos)

/-- Delays between given bounds, `n` of which have been waited for. -/
structure Paced (base highest : Duration) (n : Nat) (b : Backoff) : Prop where
  base_eq : b.base = base
  limit_eq : b.limit = highest.max base
  current_eq : b.current.toNanos = delayAfter base highest n

theorem base_le_delayAfter (base highest : Duration) (n : Nat) :
    base.toNanos ≤ delayAfter base highest n :=
  Nat.le_min.2 ⟨Nat.le_mul_of_pos_right _ (Nat.two_pow_pos n), Nat.le_max_left ..⟩

theorem delayAfter_mono (base highest : Duration) {n m : Nat} (h : n ≤ m) :
    delayAfter base highest n ≤ delayAfter base highest m := by
  have hpow : base.toNanos * 2 ^ n ≤ base.toNanos * 2 ^ m :=
    Nat.mul_le_mul_left _ (Nat.pow_le_pow_right (by decide) h)
  unfold delayAfter
  omega

/-- Doubling a capped delay and capping it again is capping the double. -/
theorem delayAfter_succ (base highest : Duration) (n : Nat) :
    delayAfter base highest (n + 1) =
      min (2 * delayAfter base highest n) (max base.toNanos highest.toNanos) := by
  have hpow : base.toNanos * 2 ^ (n + 1) = 2 * (base.toNanos * 2 ^ n) := by
    rw [Nat.pow_succ, ← Nat.mul_assoc, Nat.mul_comm]
  rw [delayAfter, delayAfter, hpow]
  omega

theorem paced_ofBounds (base highest : Duration) :
    (ofBounds base highest).Paced base highest 0 where
  base_eq := rfl
  limit_eq := rfl
  current_eq := by
    rw [delayAfter, Nat.pow_zero, Nat.mul_one]
    exact (Nat.min_eq_left (Nat.le_max_left ..)).symm

variable {base highest : Duration} {n : Nat} {b : Backoff}

theorem Paced.next (h : b.Paced base highest n) : b.next.2.Paced base highest (n + 1) where
  base_eq := h.base_eq
  limit_eq := h.limit_eq
  current_eq := by
    change b.grown.toNanos = _
    rw [toNanos_grown, h.current_eq, h.limit_eq, Duration.toNanos_max, delayAfter_succ]
    exact congrArg (min _) (Nat.max_comm ..)

theorem Paced.reset (h : b.Paced base highest n) : b.reset.Paced base highest 0 where
  base_eq := h.base_eq
  limit_eq := h.limit_eq
  current_eq := by
    change b.base.toNanos = _
    rw [h.base_eq]
    exact (paced_ofBounds base highest).current_eq

/-- The delay stays between the bounds that it was given. -/
theorem Paced.between (h : b.Paced base highest n) :
    b.base.le b.current = true ∧ b.current.le b.limit = true := by
  rw [Duration.le_iff_toNanos, Duration.le_iff_toNanos, h.base_eq, h.limit_eq, h.current_eq,
    Duration.toNanos_max]
  refine ⟨base_le_delayAfter base highest n, ?_⟩
  show min _ _ ≤ max _ _
  omega

/-! ## Runs -/

/-- What is asked of the delays. -/
inductive Request where
  | next
  | reset
  deriving DecidableEq, Repr

def act (b : Backoff) : Request → Backoff
  | .next => b.next.2
  | .reset => b.reset

def run (b : Backoff) (requests : List Request) : Backoff := requests.foldl act b

/-- How many delays have been given out since the last reset. -/
def givenOut (requests : List Request) : Nat := (requests.rtakeWhile (· = .next)).length

/-- The next delays, if there is no reset. -/
def delays (b : Backoff) : Nat → List Duration
  | 0 => []
  | k + 1 => b.next.1 :: b.next.2.delays k

theorem paced_run (base highest : Duration) (requests : List Request) :
    ((ofBounds base highest).run requests).Paced base highest (givenOut requests) := by
  -- From the end, since what counts is the last reset.
  induction requests using List.reverseRecOn with
  | nil => exact paced_ofBounds base highest
  | append_singleton requests r ih =>
    rw [run, List.foldl_append, ← run, givenOut]
    cases r with
    | next =>
      rw [List.rtakeWhile_concat_pos _ _ _ (by simp), List.length_append, ← givenOut]
      exact ih.next
    | reset =>
      rw [List.rtakeWhile_concat_neg _ _ _ (by simp)]
      exact ih.reset

theorem Paced.mem_delays (h : b.Paced base highest n) {k : Nat} {d : Duration}
    (hd : d ∈ b.delays k) : ∃ m, n ≤ m ∧ d.toNanos = delayAfter base highest m := by
  induction k generalizing b n with
  | zero => cases hd
  | succ k ih =>
    rcases List.mem_cons.1 hd with rfl | hd
    · exact ⟨n, Nat.le_refl n, h.current_eq⟩
    · obtain ⟨m, hm, hdelay⟩ := ih h.next hd
      exact ⟨m, by omega, hdelay⟩

/-- Delays do not decrease until the next reset. -/
theorem Paced.pairwise_delays (h : b.Paced base highest n) (k : Nat) :
    (b.delays k).Pairwise fun d e => d.le e = true := by
  induction k generalizing b n with
  | zero => exact List.Pairwise.nil
  | succ k ih =>
    apply List.Pairwise.cons
    · intro d hd
      obtain ⟨m, hm, hdelay⟩ := h.next.mem_delays hd
      rw [Duration.le_iff_toNanos, hdelay]
      show b.current.toNanos ≤ _
      rw [h.current_eq]
      exact delayAfter_mono base highest (by omega)
    · exact ih h.next

/-- **Delays double up to the limit.** The delay that is given out after `n`
others since the last reset, or since the beginning, is the base delay doubled
`n` times, or the larger of the base delay and the limit, whichever is less, in
exact arithmetic. It lies between the bounds, and the delays that follow do not
decrease until the next reset. Where twice the delay is more than a `Duration`
can be, capping it gives what capping the exact double would give. -/
theorem delays_double_to_limit (base highest : Duration) (requests : List Request) :
    let b := (ofBounds base highest).run requests
    b.next.1.toNanos =
        min (base.toNanos * 2 ^ givenOut requests) (max base.toNanos highest.toNanos) ∧
      (b.base = base ∧ b.limit.toNanos = max base.toNanos highest.toNanos) ∧
      (b.base.le b.current = true ∧ b.current.le b.limit = true) ∧
      (∀ k, (b.delays k).Pairwise fun d e => d.le e = true) ∧
      (b.current.double? = none ↔ 2 ^ 64 * 10 ^ 9 ≤ 2 * b.current.toNanos) ∧
      b.grown.toNanos = min (2 * b.current.toNanos) b.limit.toNanos := by
  intro b
  have hpaced : b.Paced base highest (givenOut requests) := paced_run base highest requests
  refine ⟨hpaced.current_eq, ⟨hpaced.base_eq, ?_⟩, hpaced.between, hpaced.pairwise_delays,
    Duration.double?_eq_none_iff _, toNanos_grown b⟩
  rw [hpaced.limit_eq, Duration.toNanos_max]
  exact Nat.max_comm ..

/-- Twice this delay has more seconds than there are. -/
example :
    let base : Duration := { seconds := 9223372036854775808, nanos := 499999999 }
    (ofBounds base .longest).delays 3 = [base, .longest, .longest] := by decide

end PresenceLink.Backoff
