import PresenceLink.Error
import PresenceLink.Presence
import PresenceLink.Subscription

/-!
# Requests to the peer

A command carries a number of its own, written as a decimal text. `encodeInto`
writes it piece by piece into a buffer of fixed size.

* `Cursor.writeAll_fits`, `Cursor.writeAll_too_large`: pieces are written as a
  whole exactly when they fit together;
* `encodeInto_fits`, `encodeInto_too_large`: both outcomes, in terms of
  `encode`.
-/

namespace PresenceLink

inductive Command where
  | subscribe (nonce : UInt64) (event : Subscription)
  | unsubscribe (nonce : UInt64) (event : Subscription)
  | setActivity (nonce : UInt64) (pid : UInt32) (activity : Option Presence)
  deriving DecidableEq

namespace Command

open Json

def nonce : Command → UInt64
  | subscribe n _ => n
  | unsubscribe n _ => n
  | setActivity n _ _ => n

/-- The name of the request on the wire. -/
def tag : Command → String
  | subscribe .. => "SUBSCRIBE"
  | unsubscribe .. => "UNSUBSCRIBE"
  | setActivity .. => "SET_ACTIVITY"

/-- The number of a request in base ten. -/
def nonceText (n : UInt64) : String := (Utf8.toString? (digits n.toNat)).getD ""

/-- What stands behind the number. -/
def argument : Command → String × Value
  | subscribe _ k => ("evt", .text k.wireName)
  | unsubscribe _ k => ("evt", .text k.wireName)
  | setActivity _ pid activity =>
    ("args", .object [("pid", .number pid.toNat),
      ("activity", match activity with
        | some p => p.toJson
        | none => .null)])

def toJson (c : Command) : Value :=
  .object [("cmd", .text c.tag), ("nonce", .text (nonceText c.nonce)), c.argument]

/-- The written form of a command. -/
def encode (c : Command) : Bytes := c.toJson.render

theorem encode_eq_flatten (c : Command) : c.encode = c.toJson.pieces.flatten := by
  rw [encode, Value.render]

end Command

/-- A buffer that is written from its start: the octets written so far, latest
first, and the old ones behind them. -/
structure Cursor where
  written : Bytes
  rest : Bytes
  deriving DecidableEq

namespace Cursor

def ofBuffer (buffer : Bytes) : Cursor := { written := [], rest := buffer }

/-- The buffer as it stands. -/
def buffer (c : Cursor) : Bytes := c.written.reverse ++ c.rest

/-- Write as much of a piece as fits; the flag says whether it all did. -/
def write (c : Cursor) : Bytes → Cursor × Bool
  | [] => (c, true)
  | b :: piece =>
    match c.rest with
    | [] => (c, false)
    | _ :: rest => write { written := b :: c.written, rest } piece

/-- Write pieces until one does not fit. -/
def writeAll (c : Cursor) : List Bytes → Cursor × Bool
  | [] => (c, true)
  | piece :: pieces =>
    match c.write piece with
    | (c', true) => c'.writeAll pieces
    | (c', false) => (c', false)

theorem write_fits (c : Cursor) (piece : Bytes) (h : piece.length ≤ c.rest.length) :
    c.write piece =
      ({ written := piece.reverse ++ c.written, rest := c.rest.drop piece.length }, true) := by
  induction piece generalizing c with
  | nil => simp [write]
  | cons b piece ih =>
    obtain ⟨written, rest⟩ := c
    cases rest with
    | nil => simp at h
    | cons x rest =>
      rw [write]
      simp only
      rw [ih _ (by simpa using h)]
      simp

theorem write_too_large (c : Cursor) (piece : Bytes) (h : c.rest.length < piece.length) :
    c.write piece =
      ({ written := (piece.take c.rest.length).reverse ++ c.written, rest := [] }, false) := by
  induction piece generalizing c with
  | nil => simp at h
  | cons b piece ih =>
    obtain ⟨written, rest⟩ := c
    cases rest with
    | nil => simp [write]
    | cons x rest =>
      rw [write]
      simp only
      rw [ih _ (by simpa using h)]
      simp

theorem writeAll_fits (c : Cursor) (pieces : List Bytes)
    (h : pieces.flatten.length ≤ c.rest.length) :
    c.writeAll pieces =
      ({ written := pieces.flatten.reverse ++ c.written,
         rest := c.rest.drop pieces.flatten.length }, true) := by
  induction pieces generalizing c with
  | nil => simp [writeAll]
  | cons piece pieces ih =>
    rw [List.flatten_cons, List.length_append] at h
    rw [writeAll, write_fits _ _ (by omega)]
    simp only
    rw [ih _ (by simp only [List.length_drop]; omega)]
    simp [List.drop_drop, List.append_assoc]

theorem writeAll_too_large (c : Cursor) (pieces : List Bytes)
    (h : c.rest.length < pieces.flatten.length) :
    c.writeAll pieces =
      ({ written := (pieces.flatten.take c.rest.length).reverse ++ c.written, rest := [] },
        false) := by
  induction pieces generalizing c with
  | nil => simp at h
  | cons piece pieces ih =>
    rw [List.flatten_cons, List.length_append] at h
    rw [writeAll]
    by_cases hp : piece.length ≤ c.rest.length
    · rw [write_fits _ _ hp]
      simp only
      rw [ih _ (by simp only [List.length_drop]; omega)]
      simp only [List.flatten_cons, List.take_append, List.length_drop, List.append_assoc,
        List.take_of_length_le hp, List.reverse_append]
    · rw [write_too_large _ _ (by omega)]
      simp only [List.flatten_cons, List.take_append]
      rw [show c.rest.length - piece.length = 0 by omega]
      simp

end Cursor

namespace Command

/-- Write a command at the start of a buffer. The result is the buffer and the
number of octets written; a buffer that is too small is filled all the same. -/
def encodeInto (buffer : Bytes) (c : Command) : Bytes × Except ClientError Nat :=
  match (Cursor.ofBuffer buffer).writeAll c.toJson.pieces with
  | (cursor, true) => (cursor.buffer, .ok cursor.written.length)
  | (cursor, false) => (cursor.buffer, .error (.messageTooLarge buffer.length))

theorem encodeInto_fits {buffer : Bytes} {c : Command} (h : c.encode.length ≤ buffer.length) :
    c.encodeInto buffer = (c.encode ++ buffer.drop c.encode.length, .ok c.encode.length) := by
  rw [encode_eq_flatten] at *
  generalize hp : c.toJson.pieces = pieces at h
  rw [encodeInto, hp, Cursor.writeAll_fits _ _ (by rw [Cursor.ofBuffer]; exact h)]
  simp [Cursor.ofBuffer, Cursor.buffer]

theorem encodeInto_too_large {buffer : Bytes} {c : Command}
    (h : buffer.length < c.encode.length) :
    c.encodeInto buffer =
      (c.encode.take buffer.length, .error (.messageTooLarge buffer.length)) := by
  rw [encode_eq_flatten] at *
  generalize hp : c.toJson.pieces = pieces at h
  rw [encodeInto, hp, Cursor.writeAll_too_large _ _ (by rw [Cursor.ofBuffer]; exact h)]
  simp [Cursor.ofBuffer, Cursor.buffer]

end Command

end PresenceLink
