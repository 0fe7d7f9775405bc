import PresenceLink.Error
import PresenceLink.Text.Utf8

/-!
# Frames

On a local socket every message is framed by its opcode and its length, four
octets each, lowest first.

* `ofWord32_word32`: four octets give the word back;
* `take_encode`: a frame is taken from in front of whatever follows it.
-/

namespace PresenceLink

inductive Opcode where
  | handshake
  | frame
  | close
  | ping
  | pong
  deriving DecidableEq, Repr

namespace Opcode

def code : Opcode → Nat
  | handshake => 0
  | frame => 1
  | close => 2
  | ping => 3
  | pong => 4

def ofCode? : Nat → Option Opcode
  | 0 => some handshake
  | 1 => some frame
  | 2 => some close
  | 3 => some ping
  | 4 => some pong
  | _ => none

def name : Opcode → String
  | handshake => "Handshake"
  | frame => "Frame"
  | close => "Close"
  | ping => "Ping"
  | pong => "Pong"

theorem ofCode?_code (o : Opcode) : ofCode? o.code = some o := by cases o <;> rfl

theorem code_ofCode? {n : Nat} {o : Opcode} (h : ofCode? n = some o) : o.code = n := by
  unfold ofCode? at h
  split at h <;> cases h <;> rfl

theorem code_lt (o : Opcode) : o.code < 4294967296 := by cases o <;> decide

end Opcode

structure Frame where
  opcode : Opcode
  payload : Bytes
  deriving DecidableEq, Repr

namespace Frame

def headerSize : Nat := 8

/-- The largest payload. -/
def maxPayload : Nat := 65536

/-- The four octets of a number below `2 ^ 32`, lowest first. -/
def word32 (n : Nat) : Bytes :=
  [n.toUInt8, (n / 256).toUInt8, (n / 65536).toUInt8, (n / 16777216).toUInt8]

def ofWord32 (a b c d : UInt8) : Nat :=
  a.toNat + 256 * b.toNat + 65536 * c.toNat + 16777216 * d.toNat

theorem ofWord32_word32 {n : Nat} (h : n < 4294967296) :
    ofWord32 n.toUInt8 (n / 256).toUInt8 (n / 65536).toUInt8 (n / 16777216).toUInt8 = n := by
  simp only [ofWord32, Nat.toUInt8_eq, UInt8.toNat_ofNat']
  omega

/-- A header: opcode and length of the payload. -/
def header (code length : Nat) : Bytes := word32 code ++ word32 length

/-- A frame as it is written, if its payload is not too large. -/
def encode? (f : Frame) : Option Bytes :=
  if f.payload.length ≤ maxPayload then
    some (header f.opcode.code f.payload.length ++ f.payload)
  else none

/-- The error of a payload that is too large to be written. -/
def tooLarge (size : Nat) : TransportError :=
  { code := ErrorCode.pipeClosed.code,
    message := "payload of " ++ toString size ++ " bytes exceeds the frame limit" }

/-- What stands at the start of received octets. -/
inductive Taken where
  /-- Not yet a whole frame. -/
  | partly
  | frame (f : Frame) (rest : Bytes)
  /-- No frame can come of it. -/
  | corrupt (e : TransportError)
  deriving DecidableEq, Repr

/-- The opcode, the announced length and what follows, once the header is
complete. -/
def splitHeader? : Bytes → Option (Nat × Nat × Bytes)
  | a :: b :: c :: d :: e :: f :: g :: h :: rest => some (ofWord32 a b c d, ofWord32 e f g h, rest)
  | _ => none

/-- The first `n` octets and the rest, if there are that many; the octets
passed over so far are given latest first. -/
def splitFrom (passed : Bytes) : Nat → Bytes → Option (Bytes × Bytes)
  | 0, bs => some (passed.reverse, bs)
  | _ + 1, [] => none
  | n + 1, b :: bs => splitFrom (b :: passed) n bs

/-- The first `n` octets and the rest, if there are that many. -/
def splitAt? (n : Nat) (bs : Bytes) : Option (Bytes × Bytes) := splitFrom [] n bs

/-- Take a frame from received octets. A length that is too large is found
first, then an unknown opcode, both before the payload has arrived. -/
def take (received : Bytes) : Taken :=
  match splitHeader? received with
  | none => .partly
  | some (code, length, rest) =>
    if maxPayload < length then
      .corrupt (.readCorrupt ("frame of " ++ toString length ++ " bytes exceeds the " ++
        toString maxPayload ++ " byte limit"))
    else match Opcode.ofCode? code with
      | none => .corrupt (.readCorrupt ("unknown opcode " ++ toString code))
      | some opcode =>
        match splitAt? length rest with
        | none => .partly
        | some (payload, rest) => .frame { opcode, payload } rest

theorem splitFrom_eq (passed : Bytes) (n : Nat) (bs : Bytes) :
    splitFrom passed n bs =
      if n ≤ bs.length then some (passed.reverse ++ bs.take n, bs.drop n) else none := by
  induction n generalizing passed bs with
  | zero => simp [splitFrom]
  | succ n ih =>
    cases bs with
    | nil => simp [splitFrom]
    | cons b bs => simp [splitFrom, ih]

theorem splitAt?_eq (n : Nat) (bs : Bytes) :
    splitAt? n bs = if n ≤ bs.length then some (bs.take n, bs.drop n) else none := by
  simp [splitAt?, splitFrom_eq]

theorem splitHeader?_header {code length : Nat} (hc : code < 4294967296) (hl : length < 4294967296)
    (rest : Bytes) : splitHeader? (header code length ++ rest) = some (code, length, rest) := by
  simp only [header, word32, List.cons_append, List.nil_append, splitHeader?, ofWord32_word32 hc,
    ofWord32_word32 hl]

theorem take_encode {f : Frame} {bs : Bytes} (h : f.encode? = some bs) (rest : Bytes) :
    take (bs ++ rest) = .frame f rest := by
  unfold encode? at h
  split at h
  · rename_i hs
    simp only [Option.some.injEq] at h
    subst h
    have hl : f.payload.length < 4294967296 := Nat.lt_of_le_of_lt hs (by decide)
    rw [take, List.append_assoc, splitHeader?_header f.opcode.code_lt hl]
    simp only [Nat.not_lt.2 hs, ↓reduceIte, Opcode.ofCode?_code, splitAt?_eq]
    simp
  · cases h

theorem take_frame_shorter {received rest : Bytes} {f : Frame}
    (h : take received = .frame f rest) :
    rest.length + headerSize + f.payload.length = received.length := by
  unfold take at h
  split at h
  · cases h
  · rename_i code length tail hh
    have hlen : received.length = tail.length + 8 := by
      unfold splitHeader? at hh
      split at hh
      · simp only [Option.some.injEq, Prod.mk.injEq] at hh
        obtain ⟨_, _, rfl⟩ := hh
        simp only [List.length_cons]
      · cases hh
    split at h
    · cases h
    · split at h
      · cases h
      · rw [splitAt?_eq] at h
        split at h
        · cases h
        · rename_i hs
          split at hs
          · simp only [Option.some.injEq, Prod.mk.injEq] at hs
            obtain ⟨rfl, rfl⟩ := hs
            cases h
            simp only [List.length_drop, List.length_take, headerSize]
            omega
          · cases hs

end Frame

end PresenceLink
