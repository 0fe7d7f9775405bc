import Mathlib.Algebra.Group.Nat.Defs
import PresenceLink.Proofs.Ipc.Frames

/-!
# Taking a frame undoes writing it

What is written as a frame is taken as that frame, whatever follows it, and what
is taken has been written so. A frame that has only partly arrived is left as it
is. Reader and writer agree on the largest payload.

* `remainder_of_strict_prefix`: a part of a frame may still become one;
* `take_header_corrupt_iff`: which headers are refused;
* `takeBuffered`, `nextFrame_eq_takeBuffered`: taking a frame without reading
  anything, and what it is to the next frame;
* `taking_undoes_writing`: both directions, parts of frames, and the limit.
-/

namespace PresenceLink

namespace Frame

/-- A frame that has only partly arrived. -/
theorem remainder_of_strict_prefix {f : Frame} (hf : f.Fits) {part : Bytes}
    (hp : part <+: f.octets) (hne : part ≠ f.octets) : Remainder part none := by
  rcases Nat.lt_or_ge part.length headerSize with hshort | hlong
  · exact .header hshort
  · have hheader : header f.opcode.code f.payload.length <+: part :=
      List.prefix_of_prefix_length_le (List.prefix_append _ _) hp hlong
    obtain ⟨more, rfl⟩ := hheader
    have hmore : more <+: f.payload := (List.prefix_append_right_inj _).1 hp
    -- The header is whole, so it is the payload that is cut short.
    apply Remainder.payload f.opcode hf
    apply Nat.lt_of_le_of_ne hmore.length_le
    intro hlength
    exact hne (congrArg (header _ _ ++ ·) (hmore.eq_of_length hlength))

/-- A header with a known opcode is refused for the size that it announces or
not at all. -/
theorem take_header_corrupt_iff (o : Opcode) {size : Nat} (h : size < 2 ^ 32) (rest : Bytes) :
    (∃ e, take (header o.code size ++ rest) = .corrupt e) ↔ maxPayload < size := by
  rw [take, splitHeader?_header o.code_lt h]
  simp only [Opcode.ofCode?_code, splitAt?_eq]
  by_cases hlarge : maxPayload < size
  · simp [hlarge]
  · by_cases hroom : size ≤ rest.length
    · simp [hlarge, hroom]
    · simp [hlarge, hroom]

theorem encode?_eq_none_iff {f : Frame} : f.encode? = none ↔ maxPayload < f.payload.length := by
  unfold encode?
  split
  · rename_i h
    simp only [reduceCtorEq, false_iff, Nat.not_lt]
    exact h
  · rename_i h
    simp only [true_iff]
    exact Nat.lt_of_not_le h

end Frame

namespace Ipc

/-- Take a frame from what has been received so far. -/
def takeBuffered (t : Ipc) : Except TransportError (Option Opcode) × Ipc :=
  match Frame.take t.received with
  | .frame f rest => (.ok (some f.opcode), { t with frame := f.payload, received := rest })
  | .corrupt e => (.error e, t)
  | .partly => (.ok none, t)

/-- The next frame is looked for by taking it, and by reading on as long as there
is none to take. -/
theorem nextFrame_eq_takeBuffered (t : Ipc) :
    t.nextFrame = match t.takeBuffered with
      | (.ok none, _) => match t.host.receive readChunk with
        | (.octets bytes, host) => nextFrame { t with host, received := t.received ++ bytes }
        | (.nothingYet, _) => (.ok none, t)
        | (.ended, _) => (.error .pipeClosed, t)
      | taken => taken := by
  rw [nextFrame, takeBuffered]
  cases Frame.take t.received with
  | partly =>
    simp only
    split <;> simp [*]
  | frame f rest => rfl
  | corrupt e => rfl

theorem takeBuffered_eq_ok_iff {t t' : Ipc} {o : Opcode} :
    t.takeBuffered = (.ok (some o), t') ↔
      ∃ octets rest, Frame.encode? ⟨o, t'.frame⟩ = some octets ∧ t.received = octets ++ rest ∧
        t' = { t with frame := t'.frame, received := rest } := by
  unfold takeBuffered
  constructor
  · intro h
    cases htake : Frame.take t.received with
    | partly => rw [htake] at h; cases h
    | corrupt e => rw [htake] at h; cases h
    | frame f rest =>
      rw [htake] at h
      cases h
      obtain ⟨octets, hencode, hreceived⟩ := Frame.take_eq_frame_iff.1 htake
      exact ⟨octets, rest, hencode, hreceived, rfl⟩
  · rintro ⟨octets, rest, hencode, hreceived, ht'⟩
    have htake := Frame.take_encode hencode rest
    rw [hreceived, htake, ht']

theorem takeBuffered_eq_error_iff {t : Ipc} {e : TransportError} :
    t.takeBuffered = (.error e, t) ↔ Frame.take t.received = .corrupt e := by
  unfold takeBuffered
  cases Frame.take t.received with
  | partly => simp
  | frame f rest => simp
  | corrupt e' => simp

/-- **Taking a frame undoes writing it.** Of the octets of a frame and whatever
follows them, the frame is taken and the rest is left; the other way round, what
is taken from some octets gives them back when it is written in front of what is
left. Of a part of a frame nothing is taken, no error is reported and nothing
changes. A payload whose size fits a header is refused by the writer if and only
if the reader refuses the header. -/
theorem taking_undoes_writing (t : Ipc) :
    (∀ (o : Opcode) (payload rest : Bytes), payload.length ≤ 65536 →
      ∃ octets, Frame.encode? ⟨o, payload⟩ = some octets ∧
        { t with received := octets ++ rest }.takeBuffered =
          (.ok (some o), { t with frame := payload, received := rest })) ∧
      (∀ (o : Opcode) (t' : Ipc), t.takeBuffered = (.ok (some o), t') →
        ∃ octets, Frame.encode? ⟨o, t'.frame⟩ = some octets ∧ t.received = octets ++ t'.received ∧
          t' = { t with frame := t'.frame, received := t'.received }) ∧
      (∀ (f : Frame) (octets part : Bytes), f.encode? = some octets → part <+: octets →
        part ≠ octets →
          { t with received := part }.takeBuffered = (.ok none, { t with received := part })) ∧
      ∀ (o : Opcode) (payload rest : Bytes), payload.length < 2 ^ 32 →
        let announced := { t with received := Frame.header o.code payload.length ++ rest }
        Frame.encode? ⟨o, payload⟩ = none ↔
          ∃ e, announced.takeBuffered = (.error e, announced) := by
  refine ⟨?_, ?_, ?_, ?_⟩
  · intro o payload rest hsize
    refine ⟨_, Frame.encode?_eq_some_iff.2 ⟨hsize, rfl⟩, ?_⟩
    exact takeBuffered_eq_ok_iff.2
      ⟨_, rest, Frame.encode?_eq_some_iff.2 ⟨hsize, rfl⟩, rfl, rfl⟩
  · intro o t' h
    obtain ⟨octets, rest, hencode, hreceived, ht'⟩ := takeBuffered_eq_ok_iff.1 h
    have hrest : t'.received = rest := by rw [ht']
    subst hrest
    exact ⟨octets, hencode, hreceived, ht'⟩
  · intro f octets part hencode hp hne
    obtain ⟨hf, rfl⟩ := Frame.encode?_eq_some_iff.1 hencode
    have htake : Frame.take part = .partly :=
      Frame.take_of_remainder (Frame.remainder_of_strict_prefix hf hp hne)
    simp only [takeBuffered, htake]
  · intro o payload rest hsize announced
    rw [Frame.encode?_eq_none_iff, ← Frame.take_header_corrupt_iff o hsize rest]
    exact exists_congr fun e => (takeBuffered_eq_error_iff (t := announced)).symm

/-- A ping in front of an octet of the next frame, and all but the last octet of
it. -/
theorem taking_undoes_writing_of_ping :
    let octets : Bytes := [3, 0, 0, 0, 2, 0, 0, 0, 104, 105]
    let t : Ipc := { applicationId := "1", socketPath := none, environment := [], host := {} }
    Frame.encode? ⟨.ping, [104, 105]⟩ = some octets ∧
      { t with received := octets ++ [1] }.takeBuffered =
        (.ok (some .ping), { t with frame := [104, 105], received := [1] }) ∧
      { t with received := octets.take 9 }.takeBuffered =
        (.ok none, { t with received := octets.take 9 }) := by
  intro octets t
  have hencode : Frame.encode? ⟨.ping, [104, 105]⟩ = some octets := by decide
  obtain ⟨hwhole, -, hpart, -⟩ := taking_undoes_writing t
  obtain ⟨octets', hencode', htaken⟩ := hwhole .ping [104, 105] [1] (by decide)
  rw [hencode] at hencode'
  cases hencode'
  refine ⟨hencode, htaken, ?_⟩
  exact hpart ⟨.ping, [104, 105]⟩ octets (octets.take 9) hencode (List.take_prefix 9 octets)
    (by decide)

end Ipc

end PresenceLink
