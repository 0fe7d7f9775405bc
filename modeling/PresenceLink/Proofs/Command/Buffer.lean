import PresenceLink.Proofs.Command.Written
import PresenceLink.Proofs.Json.Rendered

/-!
# Commands in buffers of any size

A command is written piece by piece, and a buffer may end anywhere within a
piece. Still there is one length that decides: a buffer of that length or more
takes the whole command and keeps all that it held behind it, and any other is
refused for its size.

* `encodeInto_eq`: both outcomes at once;
* `encodeInto_by_length`: what every buffer comes to.
-/

namespace PresenceLink.Command

open Json

theorem isValue_encode (c : Command) : IsValue c.encode := isValue_render c.toJson

theorem encodeInto_eq (c : Command) (buffer : Bytes) :
    c.encodeInto buffer =
      if c.encode.length ≤ buffer.length then
        (c.encode ++ buffer.drop c.encode.length, .ok c.encode.length)
      else (c.encode.take buffer.length, .error (.messageTooLarge buffer.length)) := by
  split
  · rename_i h
    exact encodeInto_fits h
  · rename_i h
    exact encodeInto_too_large (Nat.not_le.1 h)

/-- **One length decides whether a command fits.** A buffer takes a command
exactly if it is at least as long as the written form of the command, which is
well-formed JSON. Then that length is reported, the buffer begins with the
written form, whatever was in it before, and nothing behind it is changed.
Otherwise the command is refused as too large for the length of the buffer, and
for no other reason. -/
theorem encodeInto_by_length (c : Command) :
    IsValue c.encode ∧ ∀ buffer : Bytes,
      ((∃ n, (c.encodeInto buffer).2 = .ok n) ↔ c.encode.length ≤ buffer.length) ∧
      (∀ n, (c.encodeInto buffer).2 = .ok n →
        n = c.encode.length ∧ (c.encodeInto buffer).1.take n = c.encode ∧
          (c.encodeInto buffer).1.drop n = buffer.drop n) ∧
      ∀ e, (c.encodeInto buffer).2 = .error e → e = .messageTooLarge buffer.length := by
  refine ⟨c.isValue_encode, fun buffer => ?_⟩
  rw [encodeInto_eq]
  split
  · rename_i h
    refine ⟨iff_of_true ⟨_, rfl⟩ h, ?_, nofun⟩
    rintro _ ⟨⟩
    exact ⟨rfl, List.take_left, List.drop_left⟩
  · rename_i h
    refine ⟨iff_of_false nofun h, nofun, ?_⟩
    rintro _ ⟨⟩
    rfl

/-- A request in a used buffer with two octets to spare, and in one that ends
within its last text. -/
theorem encodeInto_by_length_of_request :
    let c : Command := .subscribe 7 .joinGame
    let used : Bytes := List.replicate 51 255
    let short : Bytes := List.replicate 45 0
    (c.encodeInto used).2 = .ok 49 ∧
      (c.encodeInto used).1.take 49 = Utf8.ofString
        "\x7b\"cmd\":\"SUBSCRIBE\",\"nonce\":\"7\",\"evt\":\"JOIN_GAME\"\x7d" ∧
      (c.encodeInto used).1.drop 49 = [255, 255] ∧
      (c.encodeInto short).2 = .error (.messageTooLarge 45) := by
  intro c used short
  have hlength : c.encode.length = 49 := by decide +kernel
  obtain ⟨-, h⟩ := encodeInto_by_length c
  obtain ⟨n, hn⟩ := (h used).1.2 (by rw [hlength]; decide)
  obtain ⟨hlast, htake, hdrop⟩ := (h used).2.1 n hn
  rw [hlength] at hlast
  subst hlast
  refine ⟨hn, htake.trans (by decide +kernel), hdrop, ?_⟩
  cases hshort : (c.encodeInto short).2 with
  | ok n => exact absurd ((h short).1.1 ⟨n, hshort⟩) (by rw [hlength]; decide)
  | error e => rw [(h short).2.2 e hshort]; rfl

end PresenceLink.Command
