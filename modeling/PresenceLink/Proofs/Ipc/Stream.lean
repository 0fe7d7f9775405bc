import PresenceLink.Ipc

/-!
# What a stream of octets says

The octets that a peer sends on one connection say, all by themselves, what the
client reports and what it sends back. Nothing in this depends on the pieces in
which they arrive.

* `take_eq_frame_iff`: a frame is taken exactly from its written form;
* `take_append_frame`, `take_append_corrupt`: what is found at the start of
  some octets is found however many follow;
* `reading`: the reports and the replies, by recursion on the stream.
-/

namespace PresenceLink

namespace Frame

theorem word32_ofWord32 (a b c d : UInt8) : word32 (ofWord32 a b c d) = [a, b, c, d] := by
  have ha := a.toNat_lt
  have hb := b.toNat_lt
  have hc := c.toNat_lt
  have hd := d.toNat_lt
  simp only [word32, ofWord32, List.cons.injEq, and_true]
  refine ⟨?_, ?_, ?_, ?_⟩ <;> apply UInt8.toNat.inj <;>
    simp only [Nat.toUInt8_eq, UInt8.toNat_ofNat'] <;> omega

theorem splitHeader?_eq_some_iff {bs rest : Bytes} {code length : Nat} :
    splitHeader? bs = some (code, length, rest) ↔
      code < 4294967296 ∧ length < 4294967296 ∧ bs = header code length ++ rest := by
  constructor
  · intro h
    unfold splitHeader? at h
    split at h
    · rename_i a b c d e f g i tail
      simp only [Option.some.injEq, Prod.mk.injEq] at h
      obtain ⟨rfl, rfl, rfl⟩ := h
      have hlt : ∀ a b c d : UInt8, ofWord32 a b c d < 4294967296 := by
        intro a b c d
        have ha := a.toNat_lt
        have hb := b.toNat_lt
        have hc := c.toNat_lt
        have hd := d.toNat_lt
        unfold ofWord32
        omega
      refine ⟨hlt .., hlt .., ?_⟩
      rw [header, word32_ofWord32, word32_ofWord32]
      rfl
    · cases h
  · rintro ⟨hc, hl, rfl⟩
    exact splitHeader?_header hc hl rest

theorem splitAt?_eq_some_iff {n : Nat} {bs payload rest : Bytes} :
    splitAt? n bs = some (payload, rest) ↔ payload.length = n ∧ bs = payload ++ rest := by
  rw [splitAt?_eq]
  constructor
  · intro h
    split at h
    · rename_i hle
      cases h
      exact ⟨List.length_take_of_le hle, (List.take_append_drop n bs).symm⟩
    · cases h
  · rintro ⟨rfl, rfl⟩
    simp

theorem take_eq_frame_iff {bs rest : Bytes} {f : Frame} :
    take bs = .frame f rest ↔ ∃ octets, f.encode? = some octets ∧ bs = octets ++ rest := by
  constructor
  · intro h
    unfold take at h
    split at h
    · cases h
    · rename_i code length tail hh
      obtain ⟨-, -, rfl⟩ := splitHeader?_eq_some_iff.1 hh
      split at h
      · cases h
      · rename_i hmax
        split at h
        · cases h
        · rename_i opcode ho
          split at h
          · cases h
          · rename_i payload rest' hs
            obtain ⟨rfl, rfl⟩ := splitAt?_eq_some_iff.1 hs
            cases h
            refine ⟨header opcode.code payload.length ++ payload, ?_, ?_⟩
            · rw [encode?, if_pos (Nat.not_lt.1 hmax)]
            · rw [List.append_assoc, Opcode.code_ofCode? ho]
  · rintro ⟨octets, he, rfl⟩
    exact take_encode he rest

theorem take_append_frame {bs rest : Bytes} {f : Frame} (h : take bs = .frame f rest)
    (more : Bytes) : take (bs ++ more) = .frame f (rest ++ more) := by
  obtain ⟨octets, he, rfl⟩ := take_eq_frame_iff.1 h
  rw [List.append_assoc]
  exact take_encode he (rest ++ more)

theorem take_append_corrupt {bs : Bytes} {e : TransportError} (h : take bs = .corrupt e)
    (more : Bytes) : take (bs ++ more) = .corrupt e := by
  unfold take at h
  split at h
  · cases h
  · rename_i code length tail hh
    obtain ⟨hc, hl, rfl⟩ := splitHeader?_eq_some_iff.1 hh
    rw [take, List.append_assoc, splitHeader?_header hc hl]
    simp only
    split at h
    · rename_i hmax
      rw [if_pos hmax]
      exact h
    · rename_i hmax
      rw [if_neg hmax]
      split at h
      · exact h
      · split at h <;> cases h

/-- The payload of a frame that was taken can be written. -/
theorem payload_le_of_take {bs rest : Bytes} {f : Frame} (h : take bs = .frame f rest) :
    f.payload.length ≤ maxPayload := by
  obtain ⟨octets, he, -⟩ := take_eq_frame_iff.1 h
  unfold encode? at he
  split at he
  · assumption
  · cases he

end Frame

namespace Ipc

/-- What a caller learns: that the link is up, a message, or why the link is
down. -/
inductive Answer where
  | connected
  | payload (octets : Bytes)
  | failed (e : TransportError)
  deriving DecidableEq, Repr

/-- The answers to a caller, and the octets sent to the peer. -/
structure Transcript where
  answers : List Answer
  sent : Bytes
  deriving DecidableEq, Repr

namespace Transcript

def empty : Transcript := { answers := [], sent := [] }

def ofAnswer (a : Answer) : Transcript := { answers := [a], sent := [] }

def ofSent (sent : Bytes) : Transcript := { answers := [], sent }

/-- First one and then the other. -/
def followedBy (first second : Transcript) : Transcript where
  answers := first.answers ++ second.answers
  sent := first.sent ++ second.sent

@[simp] theorem empty_followedBy (a : Transcript) : empty.followedBy a = a := by
  simp [followedBy, empty]

@[simp] theorem ofSent_nil_followedBy (a : Transcript) : (ofSent []).followedBy a = a :=
  empty_followedBy a

@[simp] theorem followedBy_empty (a : Transcript) : a.followedBy empty = a := by
  simp [followedBy, empty]

end Transcript

/-- The reply to a ping. -/
def pong (payload : Bytes) : Bytes := Frame.header Opcode.pong.code payload.length ++ payload

/-- What a stream says to a client that is, or is not yet, told that the peer is
ready. A stream that stops inside a frame says nothing more, or, if it has
ended there, that the link is down. -/
def reading (ended opened : Bool) (stream : Bytes) : Transcript :=
  match _ : Frame.take stream with
  | .partly => if ended then .ofAnswer (.failed .pipeClosed) else .empty
  | .corrupt e => .ofAnswer (.failed e)
  | .frame f rest =>
    match f.opcode with
    | .frame =>
      if opened then (Transcript.ofAnswer (.payload f.payload)).followedBy (reading ended true rest)
      else if isReady f.payload then
        (Transcript.ofAnswer .connected).followedBy (reading ended true rest)
      else reading ended false rest
    | .ping => (Transcript.ofSent (pong f.payload)).followedBy (reading ended opened rest)
    | .pong => reading ended opened rest
    | .close => .ofAnswer (.failed (farewellError f.payload))
    | .handshake =>
      .ofAnswer (.failed (.readCorrupt ("unexpected " ++ f.opcode.name ++ " frame")))
termination_by stream.length
decreasing_by
  all_goals
    have := Frame.take_frame_shorter (by assumption)
    simp only [Frame.headerSize] at this
    omega

/-- What a message says, and what the stream says after it. -/
def delivering (ended opened : Bool) (payload rest : Bytes) : Transcript :=
  if opened then (Transcript.ofAnswer (.payload payload)).followedBy (reading ended true rest)
  else if isReady payload then
    (Transcript.ofAnswer .connected).followedBy (reading ended true rest)
  else reading ended false rest

theorem reading_of_partly {stream : Bytes} (h : Frame.take stream = .partly)
    (ended opened : Bool) :
    reading ended opened stream =
      if ended then .ofAnswer (.failed .pipeClosed) else .empty := by
  rw [reading]
  split <;> simp_all

theorem reading_of_corrupt {stream : Bytes} {e : TransportError}
    (h : Frame.take stream = .corrupt e) (ended opened : Bool) :
    reading ended opened stream = .ofAnswer (.failed e) := by
  rw [reading]
  split <;> simp_all

theorem reading_of_frame {stream rest : Bytes} {f : Frame}
    (h : Frame.take stream = .frame f rest) (ended opened : Bool) :
    reading ended opened stream =
      match f.opcode with
      | .frame => delivering ended opened f.payload rest
      | .ping => (Transcript.ofSent (pong f.payload)).followedBy (reading ended opened rest)
      | .pong => reading ended opened rest
      | .close => .ofAnswer (.failed (farewellError f.payload))
      | .handshake =>
        .ofAnswer (.failed (.readCorrupt ("unexpected " ++ f.opcode.name ++ " frame"))) := by
  rw [reading]
  split
  · simp_all
  · simp_all
  · rename_i f' rest' h'
    rw [h] at h'
    cases h'
    rfl

end Ipc

end PresenceLink
