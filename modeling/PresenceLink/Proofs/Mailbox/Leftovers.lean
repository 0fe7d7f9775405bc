import PresenceLink.Proofs.Mailbox.Cells
import PresenceLink.Proofs.Text.Buffer

/-!
# What is left behind the text of a delivery

The mailbox stores its texts in a few buffers, over and over. A delivery has the
text of its event, and behind it what longer texts have left in that buffer.

* `Delivery.eq_ofEvent_iff`: a delivery is the one built from its event if its
  buffer is as good as new;
* `Buffers`, `equal_by_text_and_trace`: when deliveries are equal to new ones;
* `leftover_of_longer_text`: equal texts in buffers that differ.
-/

namespace PresenceLink

/-! ## Deliveries -/

/-- The text of an event. -/
def Event.text : Event → String
  | .connected | .presenceRequested => ""
  | .disconnected _ message | .errored _ message => message
  | .joinGame secret | .spectateGame secret => secret

/-- The delivery that is built from an event. -/
def Delivery.ofEvent : Event → Delivery
  | .connected => .connected
  | .disconnected code message => .disconnected (.ofText code message)
  | .errored code message => .errored (.ofText code message)
  | .presenceRequested => .presenceRequested
  | .joinGame secret => .joinGame (.ofString secret)
  | .spectateGame secret => .spectateGame (.ofString secret)

/-- The buffer with the text of a delivery. -/
def Delivery.payload? : Delivery → Option PayloadText
  | .connected | .presenceRequested => none
  | .disconnected info | .errored info => some info.message
  | .joinGame secret | .spectateGame secret => some secret

theorem Delivery.text_event {d : Delivery} {t : PayloadText} (h : t ∈ d.payload?) :
    d.event.text = t.text := by
  cases d <;> cases h <;> rfl

/-- A delivery is the one built from its event if its buffer is as good as new. -/
theorem Delivery.eq_ofEvent_iff (d : Delivery) :
    d = .ofEvent d.event ↔ ∀ t ∈ d.payload?, t = .ofString t.text := by
  cases d with
  | connected | presenceRequested => exact ⟨fun _ => nofun, fun _ => rfl⟩
  | disconnected info | errored info =>
    obtain ⟨code, message⟩ := info
    simp [ofEvent, event, payload?, ErrorInfo.ofText]
  | joinGame secret | spectateGame secret => simp [ofEvent, event, payload?]

/-- What holds of every buffer of a cell. -/
def LatestCell.Every {α : Type} (P : α → Prop) (c : LatestCell α) : Prop := ∀ i, P (c.buffer i)

namespace LatestCell.Every

variable {α : Type} {P : α → Prop} {c : LatestCell α}

theorem ofValue {a : α} (h : P a) : (LatestCell.ofValue a).Every P := by
  intro i
  cases i <;> exact h

theorem publish (h : c.Every P) {f : α → α} (hf : ∀ a, P a → P (f a)) : (c.publish f).Every P := by
  intro i
  change P ((c.modify c.writeIndex f).buffer i)
  rw [buffer_modify]
  split
  · exact hf _ (h i)
  · exact h i

theorem take (h : c.Every P) : c.take.2.Every P := by
  intro i
  unfold LatestCell.take
  split <;> exact h i

theorem taken (h : c.Every P) {a : α} (ha : c.take.1 = some a) : P a := by
  unfold LatestCell.take at ha
  split at ha
  · cases ha
    exact h _
  · cases ha

end LatestCell.Every

namespace Mailbox

/-- What holds of every buffer for the events of a kind. -/
def Buffers (P : PayloadText → Prop) (m : Mailbox) : EventKind → Prop
  | .connected | .presenceRequested => True
  | .disconnected => m.disconnected.Every fun info => P info.message
  | .errored => m.errored.Every fun info => P info.message
  | .joinGame => m.joinGame.Every P
  | .spectateGame => m.spectateGame.Every P

variable {P : PayloadText → Prop} {m : Mailbox} {k : EventKind}

theorem buffers_empty (h : P .empty) : empty.Buffers P k := by
  cases k with
  | connected | presenceRequested => trivial
  | disconnected | errored =>
    exact LatestCell.Every.ofValue (P := fun info : ErrorInfo => P info.message) h
  | joinGame | spectateGame => exact .ofValue h

theorem Buffers.publish (h : m.Buffers P k) {e : Event}
    (hset : e.kind = k → ∀ t, P t → P (t.set e.text)) : (m.publish e).Buffers P k := by
  cases e with
  | connected | presenceRequested => cases k <;> exact h
  | disconnected code message =>
    cases k with
    | disconnected =>
      have hcell : m.disconnected.Every fun info => P info.message := h
      exact hcell.publish fun info hi => hset rfl _ hi
    | _ => exact h
  | errored code message =>
    cases k with
    | errored =>
      have hcell : m.errored.Every fun info => P info.message := h
      exact hcell.publish fun info hi => hset rfl _ hi
    | _ => exact h
  | joinGame secret =>
    cases k with
    | joinGame => exact LatestCell.Every.publish h (hset rfl)
    | _ => exact h
  | spectateGame secret =>
    cases k with
    | spectateGame => exact LatestCell.Every.publish h (hset rfl)
    | _ => exact h

theorem Buffers.take (h : m.Buffers P k) (j : EventKind) : (m.take j).2.Buffers P k := by
  cases j with
  | connected | presenceRequested => cases k <;> exact h
  | disconnected =>
    cases k with
    | disconnected =>
      have hcell : m.disconnected.Every fun info => P info.message := h
      exact hcell.take
    | _ => exact h
  | errored =>
    cases k with
    | errored =>
      have hcell : m.errored.Every fun info => P info.message := h
      exact hcell.take
    | _ => exact h
  | joinGame =>
    cases k with
    | joinGame => exact LatestCell.Every.take h
    | _ => exact h
  | spectateGame =>
    cases k with
    | spectateGame => exact LatestCell.Every.take h
    | _ => exact h

theorem Buffers.run (h : m.Buffers P k) {ops : List Op}
    (hset : ∀ e, .publish e ∈ ops → e.kind = k → ∀ t, P t → P (t.set e.text)) :
    (m.run ops).2.Buffers P k := by
  induction ops generalizing m with
  | nil => exact h
  | cons op ops ih =>
    have hop : (m.act op).2.Buffers P k := by
      cases op with
      | publish e => exact h.publish (hset e List.mem_cons_self)
      | take j => exact h.take j
    exact ih hop fun e he => hset e (List.mem_cons_of_mem _ he)

/-- What holds of the buffers holds of the text that is delivered. -/
theorem Buffers.payload (h : m.Buffers P k) {d : Delivery} (hd : (m.take k).1 = some d) :
    ∀ t ∈ d.payload?, P t := by
  cases k with
  | connected | presenceRequested =>
    simp only [Mailbox.take] at hd
    split at hd <;> cases hd
    rintro t ⟨⟩
  | disconnected =>
    obtain ⟨info, htaken, rfl⟩ := Option.map_eq_some_iff.1 hd
    have hcell : m.disconnected.Every fun info => P info.message := h
    rintro t ht
    cases ht
    exact hcell.taken htaken
  | errored =>
    obtain ⟨info, htaken, rfl⟩ := Option.map_eq_some_iff.1 hd
    have hcell : m.errored.Every fun info => P info.message := h
    rintro t ht
    cases ht
    exact hcell.taken htaken
  | joinGame =>
    obtain ⟨secret, htaken, rfl⟩ := Option.map_eq_some_iff.1 hd
    rintro t ht
    cases ht
    exact LatestCell.Every.taken h htaken
  | spectateGame =>
    obtain ⟨secret, htaken, rfl⟩ := Option.map_eq_some_iff.1 hd
    rintro t ht
    cases ht
    exact LatestCell.Every.taken h htaken

/-- **Equality of stored texts.** Two buffers are equal if and only if their texts
are and the octets behind them, each of which is the one that was stored last at
its place, or zero. So if neither has held a longer text since it was new, they
are equal if and only if their texts are. A delivery from the mailbox equals the
one that is built from its event if and only if nothing is left behind its text;
and nothing is, if no event of its kind had a longer text. -/
theorem equal_by_text_and_trace (n : Nat) (ops ops' : List FixedText.Op) (history : List Op)
    (k : EventKind) :
    let t : FixedText n := FixedText.run ops
    let u : FixedText n := FixedText.run ops'
    (t = u ↔ t.text = u.text ∧ ∀ i < n, t.length ≤ i →
      FixedText.trace (FixedText.stored n ops) i = FixedText.trace (FixedText.stored n ops') i) ∧
    ((∀ octets ∈ FixedText.stored n ops, octets.length ≤ t.length) →
      (∀ octets ∈ FixedText.stored n ops', octets.length ≤ u.length) →
        (t = u ↔ t.text = u.text)) ∧
    ∀ d, ((empty.run history).2.take k).1 = some d →
      (d = .ofEvent d.event ↔ ∀ message ∈ d.payload?, ∀ i < payloadCapacity,
        message.length ≤ i → message.bytes[i]? = some 0) ∧
      ((∀ e, .publish e ∈ history → e.kind = k →
        FixedText.cut payloadCapacity e.text ≤ (Utf8.ofString d.event.text).length) →
          d = .ofEvent d.event) := by
  intro t u
  have ht : t.Legible := FixedText.legible_run ops
  have hu : u.Legible := FixedText.legible_run ops'
  have ho : t.Traced (FixedText.stored n ops) := FixedText.traced_run ops
  have ho' : u.Traced (FixedText.stored n ops') := FixedText.traced_run ops'
  refine ⟨FixedText.eq_iff_text_and_trace ht hu ho ho', fun hshort hshort' => ?_, fun d hd => ?_⟩
  · constructor
    · intro h
      rw [h]
    · intro htext
      rw [FixedText.eq_ofString_text ht ho hshort, FixedText.eq_ofString_text hu ho' hshort', htext]
  · let texts : String → Prop := fun value => ∃ e, .publish e ∈ history ∧ e.kind = k ∧ e.text = value
    have hbuffers : (empty.run history).2.Buffers (FixedText.MadeOf texts) k :=
      (buffers_empty (FixedText.madeOf_empty texts)).run
        fun e he hk t ht => ht.set ⟨e, he, hk, rfl⟩
    have hmade := hbuffers.payload hd
    rw [d.eq_ofEvent_iff]
    constructor
    · refine forall₂_congr fun message hmem => ?_
      obtain ⟨hlegible, older, htraced, -⟩ := hmade message hmem
      rw [FixedText.eq_ofString_text_iff hlegible htraced]
      refine forall₂_congr fun i hi => ?_
      rw [htraced i hi, Option.some.injEq]
    · intro hshort message hmem
      refine (hmade message hmem).eq_ofString_text ?_
      rintro value ⟨e, he, hk, rfl⟩
      rw [← Delivery.text_event hmem]
      exact hshort e he hk

/-- A text that was stored over one of its size, and a delivery behind a shorter
one. -/
theorem equal_by_text_and_trace_of_ab :
    (FixedText.run [.set "xy", .set "ab"] : FixedText 8) = FixedText.run [.ofString "ab"] ∧
      ((empty.run [.publish (.joinGame "x"), .publish (.joinGame "ab")]).2.take .joinGame).1 =
        some (.ofEvent (.joinGame "ab")) := by
  obtain ⟨-, hbuffers, hdeliveries⟩ := equal_by_text_and_trace 8 [.set "xy", .set "ab"]
    [.ofString "ab"] [.publish (.joinGame "x"), .publish (.joinGame "ab")] .joinGame
  constructor
  · exact (hbuffers (by decide +kernel) (by decide +kernel)).2 (by decide +kernel)
  · have htaken : ((empty.run [.publish (.joinGame "x"), .publish (.joinGame "ab")]).2.take
        .joinGame).1 = some (.joinGame (.set (.ofString "") "ab")) := by decide +kernel
    have hevent : (Delivery.joinGame (.set (.ofString "") "ab")).event = .joinGame "ab" := by
      decide +kernel
    have hnew := (hdeliveries _ htaken).2 ?_
    · rw [htaken, hnew, hevent]
    · rw [hevent]
      intro e he _
      simp only [List.mem_cons, Op.publish.injEq, List.not_mem_nil, or_false] at he
      rcases he with rfl | rfl <;> decide +kernel

/-- A secret that follows a longer one into the same buffer has the octets of that
one behind it. The buffer is not the one that is made for the secret, and neither
is the delivery from the mailbox, though the texts are the same. -/
theorem leftover_of_longer_text :
    let t : FixedText 8 := FixedText.run [.ofString "longer!!", .set "ab"]
    let u : FixedText 8 := FixedText.run [.ofString "ab"]
    let ops : List Op := [.publish (.joinGame "longer"), .publish (.joinGame "b"),
      .publish (.joinGame "ab")]
    (t.text = u.text ∧ t ≠ u) ∧
      ∃ d, ((empty.run ops).2.take .joinGame).1 = some d ∧ d.event = .joinGame "ab" ∧
        d ≠ .ofEvent (.joinGame "ab") := by
  intro t u ops
  have htaken : ((empty.run ops).2.take .joinGame).1 =
      some (.joinGame ((FixedText.ofString "longer").set "ab")) := by decide +kernel
  exact ⟨⟨by decide +kernel, by decide +kernel⟩, _, htaken, by decide +kernel, by decide +kernel⟩

end Mailbox

end PresenceLink
