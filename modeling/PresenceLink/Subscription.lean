/-!
# Events of the peer to subscribe to

Three kinds of event, and sets of them packed into three bits.

* `contains_ofList`, `contains_diff`: membership in the sets that the operations
  build;
* `mem_toList`: listing a set gives its members, always in the same order.
-/

namespace PresenceLink

inductive Subscription where
  | presenceRequested
  | joinGame
  | spectateGame
  deriving DecidableEq, Repr

namespace Subscription

/-- Every kind, in the order in which kinds are announced. -/
def all : List Subscription := [presenceRequested, joinGame, spectateGame]

/-- The name on the wire. -/
def wireName : Subscription → String
  | presenceRequested => "PRESENCE_REQUESTED"
  | joinGame => "JOIN_GAME"
  | spectateGame => "SPECTATE_GAME"

def ofWireName? (s : String) : Option Subscription := all.find? fun k => k.wireName == s

def bit : Subscription → UInt8
  | presenceRequested => 1
  | joinGame => 2
  | spectateGame => 4

theorem mem_all (k : Subscription) : k ∈ all := by cases k <;> decide

theorem ofWireName?_wireName (k : Subscription) : ofWireName? k.wireName = some k := by
  cases k <;> decide

end Subscription

/-- A set of kinds. Only the three lowest bits can be set. -/
structure Subscriptions where
  bits : UInt8
  bits_lt : bits < 8
  deriving DecidableEq

namespace Subscriptions

def empty : Subscriptions := ⟨0, by decide⟩

instance : Inhabited Subscriptions := ⟨empty⟩

theorem and_seven_lt (b : UInt8) : b &&& 7 < 8 := by
  rw [UInt8.lt_iff_toNat_lt, UInt8.toNat_and]
  exact Nat.lt_of_le_of_lt Nat.and_le_right (by decide)

/-- The kinds among the bits of a word; other bits are dropped. -/
def ofBits (b : UInt8) : Subscriptions := ⟨b &&& 7, and_seven_lt b⟩

def contains (s : Subscriptions) (k : Subscription) : Bool := s.bits &&& k.bit != 0

def insert (s : Subscriptions) (k : Subscription) : Subscriptions := ofBits (s.bits ||| k.bit)

/-- The kinds in `s` but not in `t`. -/
def diff (s t : Subscriptions) : Subscriptions := ofBits (s.bits &&& ~~~t.bits)

def isEmpty (s : Subscriptions) : Bool := s.bits == 0

def toList (s : Subscriptions) : List Subscription := Subscription.all.filter s.contains

def ofList (ks : List Subscription) : Subscriptions := ks.foldl insert empty

def describe (s : Subscriptions) : String := "Subscriptions(" ++ toString s.bits.toNat ++ ")"

/-- A set is one of eight. -/
theorem eq_ofBits (s : Subscriptions) : ∃ i : Fin 8, s = ofBits (UInt8.ofNat i.val) := by
  obtain ⟨b, hb⟩ := s
  refine ⟨⟨b.toNat, by simpa [UInt8.lt_iff_toNat_lt] using hb⟩, ?_⟩
  have h : b.toNat < 8 := by simpa [UInt8.lt_iff_toNat_lt] using hb
  simp only [ofBits, mk.injEq, UInt8.ofNat_toNat]
  have h7 : b &&& 7 = b := by
    apply UInt8.toNat.inj
    rw [UInt8.toNat_and]
    have h8 : b.toNat &&& 7 = b.toNat % 8 := Nat.and_two_pow_sub_one_eq_mod b.toNat 3
    show b.toNat &&& 7 = b.toNat
    omega
  exact h7.symm

/-- What holds of the eight sets holds of all. -/
theorem forall_of_eight {P : Subscriptions → Prop} (h : ∀ i : Fin 8, P (ofBits (UInt8.ofNat i.val)))
    (s : Subscriptions) : P s := by
  obtain ⟨i, rfl⟩ := eq_ofBits s
  exact h i

theorem contains_empty (k : Subscription) : empty.contains k = false := by cases k <;> decide

theorem contains_insert (s : Subscriptions) (j k : Subscription) :
    (s.insert j).contains k = (s.contains k || decide (j = k)) := by
  revert s
  apply forall_of_eight
  cases j <;> cases k <;> decide

theorem contains_foldl_insert (ks : List Subscription) (s : Subscriptions) (k : Subscription) :
    (ks.foldl insert s).contains k = (s.contains k || decide (k ∈ ks)) := by
  induction ks generalizing s with
  | nil => simp
  | cons j ks ih =>
    rw [List.foldl_cons, ih, contains_insert, Bool.or_assoc, ← Bool.decide_or]
    simp only [List.mem_cons, eq_comm]

theorem contains_ofList (ks : List Subscription) (k : Subscription) :
    (ofList ks).contains k = decide (k ∈ ks) := by
  rw [ofList, contains_foldl_insert, contains_empty, Bool.false_or]

theorem contains_diff (s t : Subscriptions) (k : Subscription) :
    (s.diff t).contains k = (s.contains k && !t.contains k) := by
  revert s
  apply forall_of_eight
  intro i
  revert t
  apply forall_of_eight
  revert i
  cases k <;> decide +kernel

theorem mem_toList (s : Subscriptions) (k : Subscription) : k ∈ s.toList ↔ s.contains k = true := by
  simp [toList, Subscription.mem_all]

end Subscriptions

end PresenceLink
