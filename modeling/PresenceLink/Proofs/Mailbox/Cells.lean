import Mathlib.Logic.Function.Basic
import PresenceLink.Mailbox
import PresenceLink.Proofs.Text.Prefix

/-!
# A mailbox is six cells with the latest event

What a mailbox is meant to be: for each kind of event a cell that holds the
latest event of that kind until it is taken. There are no buffers and no
indices. A text comes out as much of it as a buffer can hold, whatever the
buffer held before.

* `Holds.publish`, `Holds.take`: the two operations keep the cells in step;
* `run_eq_some_iff`: what a cell holds, in terms of what has happened;
* `mailbox_refines_cells`: the same answers, whatever the operations.
-/

namespace PresenceLink

/-- An event with its texts cut to the size of a buffer. -/
def Event.clip : Event → Event
  | connected => connected
  | disconnected code message => disconnected code (Utf8.clip payloadCapacity message)
  | errored code message => errored code (Utf8.clip payloadCapacity message)
  | presenceRequested => presenceRequested
  | joinGame secret => joinGame (Utf8.clip payloadCapacity secret)
  | spectateGame secret => spectateGame (Utf8.clip payloadCapacity secret)

/-- The event that is read off a delivery. -/
def Delivery.event : Delivery → Event
  | connected => .connected
  | disconnected info => .disconnected info.code info.message.text
  | errored info => .errored info.code info.message.text
  | presenceRequested => .presenceRequested
  | joinGame secret => .joinGame secret.text
  | spectateGame secret => .spectateGame secret.text

theorem LatestCell.take_publish {α : Type} (c : LatestCell α) (f : α → α) :
    (c.publish f).take.1 = some (f (c.buffer c.writeIndex)) := by
  have hfresh : (c.publish f).fresh = true := rfl
  rw [LatestCell.take, if_pos hfresh, waiting_publish]

theorem LatestCell.take_take {α : Type} (c : LatestCell α) : c.take.2.take.1 = none := by
  cases hfresh : c.fresh with
  | true => simp [LatestCell.take, hfresh]
  | false => simp [LatestCell.take, hfresh]

namespace Mailbox

/-- The operations on a mailbox. -/
inductive Op where
  | publish (e : Event)
  | take (k : EventKind)
  deriving DecidableEq, Repr

/-- The kind of event that an operation is about. -/
def Op.kind : Op → EventKind
  | publish e => e.kind
  | take k => k

/-- What an operation gives out, and the mailbox behind it. -/
def act (m : Mailbox) : Op → Option Delivery × Mailbox
  | .publish e => (none, m.publish e)
  | .take k => m.take k

def run (m : Mailbox) : List Op → List (Option Delivery) × Mailbox
  | [] => ([], m)
  | op :: ops =>
    let (answer, m) := m.act op
    let (answers, m) := m.run ops
    (answer :: answers, m)

/-- For each kind the latest event that has not been taken. -/
abbrev Cells := EventKind → Option Event

namespace Cells

def empty : Cells := fun _ => none

def act (cells : Cells) : Op → Option Event × Cells
  | .publish e => (none, Function.update cells e.kind (some e))
  | .take k => (cells k, Function.update cells k none)

def run (cells : Cells) : List Op → List (Option Event) × Cells
  | [] => ([], cells)
  | op :: ops =>
    let (answer, cells) := act cells op
    let (answers, cells) := run cells ops
    (answer :: answers, cells)

theorem act_eq_some_iff (cells : Cells) (op : Op) (k : EventKind) (e : Event) :
    (act cells op).2 k = some e ↔
      (cells k = some e ∧ op.kind ≠ k) ∨ (op = .publish e ∧ e.kind = k) := by
  cases op with
  | publish e' =>
    rcases eq_or_ne k e'.kind with rfl | hk
    · simp only [act, Function.update_self, Option.some.injEq, Op.kind, ne_eq, not_true_eq_false,
        and_false, false_or, Op.publish.injEq]
      constructor
      · rintro rfl
        exact ⟨rfl, rfl⟩
      · exact fun h => h.1
    · simp only [act, Function.update_of_ne hk, Op.kind, Op.publish.injEq]
      constructor
      · exact fun h => Or.inl ⟨h, hk.symm⟩
      · rintro (h | ⟨rfl, h⟩)
        · exact h.1
        · exact absurd h.symm hk
  | take k' =>
    rcases eq_or_ne k k' with rfl | hk
    · simp [act, Op.kind]
    · simp [act, Function.update_of_ne hk, Op.kind, hk.symm]

/-- A cell holds the latest event of its kind, if it has not been taken since. -/
theorem run_eq_some_iff (cells : Cells) (ops : List Op) (k : EventKind) (e : Event) :
    (run cells ops).2 k = some e ↔
      (cells k = some e ∧ ∀ op ∈ ops, op.kind ≠ k) ∨
      ∃ before after, ops = before ++ .publish e :: after ∧ e.kind = k ∧
        ∀ op ∈ after, op.kind ≠ k := by
  induction ops generalizing cells with
  | nil => simp [run]
  | cons op ops ih =>
    change (run (act cells op).2 ops).2 k = some e ↔ _
    rw [ih, act_eq_some_iff]
    constructor
    · rintro (⟨⟨h, hop⟩ | ⟨rfl, hk⟩, hops⟩ | ⟨before, after, rfl, hk, hafter⟩)
      · exact Or.inl ⟨h, List.forall_mem_cons.2 ⟨hop, hops⟩⟩
      · exact Or.inr ⟨[], ops, rfl, hk, hops⟩
      · exact Or.inr ⟨op :: before, after, rfl, hk, hafter⟩
    · rintro (⟨h, hops⟩ | ⟨before, after, hsplit, hk, hafter⟩)
      · obtain ⟨hop, hops⟩ := List.forall_mem_cons.1 hops
        exact Or.inl ⟨Or.inl ⟨h, hop⟩, hops⟩
      · cases before with
        | nil =>
          obtain ⟨rfl, rfl⟩ := List.cons.inj hsplit
          exact Or.inl ⟨Or.inr ⟨rfl, hk⟩, hafter⟩
        | cons op' before =>
          obtain ⟨rfl, rfl⟩ := List.cons.inj hsplit
          exact Or.inr ⟨before, after, rfl, hk, hafter⟩

end Cells

/-! ## The mailbox and its cells -/

/-- Taking from the mailbox gives what the cells hold, cut to size. -/
def Holds (m : Mailbox) (cells : Cells) : Prop :=
  ∀ k, (m.take k).1.map Delivery.event = (cells k).map Event.clip

theorem take_publish (m : Mailbox) (e : Event) :
    ((m.publish e).take e.kind).1.map Delivery.event = some e.clip := by
  cases e with
  | connected => rfl
  | presenceRequested => rfl
  | disconnected code message | errored code message =>
    simp [publish, take, Event.kind, LatestCell.take_publish, Delivery.event, setError,
      FixedText.text_set, Event.clip]
  | joinGame secret | spectateGame secret =>
    simp [publish, take, Event.kind, LatestCell.take_publish, Delivery.event, setText,
      FixedText.text_set, Event.clip]

theorem take_take (m : Mailbox) (k : EventKind) : ((m.take k).2.take k).1 = none := by
  cases k <;> simp [take, LatestCell.take_take]

theorem take_take_of_ne (m : Mailbox) {j k : EventKind} (h : j ≠ k) :
    ((m.take j).2.take k).1 = (m.take k).1 := by
  cases j <;> cases k <;> first | rfl | exact absurd rfl h

/-- Operations on one kind do not affect another. -/
theorem take_act_of_ne (m : Mailbox) {op : Op} {k : EventKind} (h : op.kind ≠ k) :
    ((m.act op).2.take k).1 = (m.take k).1 := by
  cases op with
  | publish e => exact take_publish_of_ne m e k h
  | take j => exact take_take_of_ne m h

theorem holds_empty : empty.Holds Cells.empty := by
  intro k
  cases k <;> rfl

theorem Holds.publish {m : Mailbox} {cells : Cells} (h : m.Holds cells) (e : Event) :
    (m.publish e).Holds (Function.update cells e.kind (some e)) := by
  intro k
  rcases eq_or_ne k e.kind with rfl | hk
  · rw [take_publish, Function.update_self, Option.map_some]
  · rw [take_publish_of_ne m e k hk.symm, Function.update_of_ne hk]
    exact h k

theorem Holds.take {m : Mailbox} {cells : Cells} (h : m.Holds cells) (k : EventKind) :
    (m.take k).2.Holds (Function.update cells k none) := by
  intro j
  rcases eq_or_ne j k with rfl | hj
  · rw [take_take, Function.update_self, Option.map_none, Option.map_none]
  · rw [take_take_of_ne m hj.symm, Function.update_of_ne hj]
    exact h j

theorem Holds.act {m : Mailbox} {cells : Cells} (h : m.Holds cells) (op : Op) :
    (m.act op).1.map Delivery.event = (Cells.act cells op).1.map Event.clip ∧
      (m.act op).2.Holds (Cells.act cells op).2 := by
  cases op with
  | publish e => exact ⟨rfl, h.publish e⟩
  | take k => exact ⟨h k, h.take k⟩

theorem Holds.run {m : Mailbox} {cells : Cells} (h : m.Holds cells) (ops : List Op) :
    (m.run ops).1.map (Option.map Delivery.event) =
        (Cells.run cells ops).1.map (Option.map Event.clip) ∧
      (m.run ops).2.Holds (Cells.run cells ops).2 := by
  induction ops generalizing m cells with
  | nil => exact ⟨rfl, h⟩
  | cons op ops ih =>
    obtain ⟨hanswer, hstep⟩ := h.act op
    obtain ⟨hanswers, hrun⟩ := ih hstep
    exact ⟨congrArg₂ List.cons hanswer hanswers, hrun⟩

/-- **A mailbox is six cells, each with the latest event of its kind.** It gives
the answers of the cells, whatever the operations. An event can be taken
exactly when it is the latest of its kind and none of that kind has been taken
since. It keeps its code and the longest beginning of its text that fits into
256 octets. Operations on other kinds change nothing. -/
theorem mailbox_refines_cells (ops : List Op) :
    let m := empty.run ops
    m.1.map (Option.map Delivery.event) =
        (Cells.run Cells.empty ops).1.map (Option.map Event.clip) ∧
      (∀ k e, (m.2.take k).1.map Delivery.event = some e ↔
        ∃ before latest after, ops = before ++ .publish latest :: after ∧ latest.kind = k ∧
          (∀ op ∈ after, op.kind ≠ k) ∧ e = latest.clip) ∧
      (∀ op k, op.kind ≠ k → ((m.2.act op).2.take k).1 = (m.2.take k).1) ∧
      ∀ text, LongestPrefix 256 text (Utf8.clip payloadCapacity text) := by
  intro m
  obtain ⟨hanswers, hholds⟩ := holds_empty.run ops
  refine ⟨hanswers, ?_, fun op k h => take_act_of_ne m.2 h, Utf8.longestPrefix_clip 256⟩
  intro k e
  rw [hholds k, Option.map_eq_some_iff]
  constructor
  · rintro ⟨latest, hlatest, rfl⟩
    rcases (Cells.run_eq_some_iff Cells.empty ops k latest).1 hlatest with ⟨h, -⟩ | h
    · cases h
    · obtain ⟨before, after, hsplit, hk, hafter⟩ := h
      exact ⟨before, latest, after, hsplit, hk, hafter, rfl⟩
  · rintro ⟨before, latest, after, hsplit, hk, hafter, rfl⟩
    have hlatest := (Cells.run_eq_some_iff Cells.empty ops k latest).2
      (Or.inr ⟨before, after, hsplit, hk, hafter⟩)
    exact ⟨latest, hlatest, rfl⟩

end Mailbox

end PresenceLink
