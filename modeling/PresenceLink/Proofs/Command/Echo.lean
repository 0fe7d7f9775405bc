import PresenceLink.Proofs.Command.Written
import PresenceLink.Proofs.Inbound.Frames
import PresenceLink.Proofs.Json.Rendered

/-!
# Requests that come back

A peer may send back what it was sent. A written request is a message that the
reader of messages accepts: it has the name, the number and the kind of event of
the request and no data, so it counts as an answer. The arguments of a request
are skipped as a whole, so no text in them can pass for a member of the message.

* `nonceText_eq_toString`: the number of a request is written in base ten;
* `spells_encode`: what a written request says to the reader of messages;
* `parse_encode`: as what it is read.
-/

namespace PresenceLink.Command

open Json Json.Content

/-! ## The number -/

theorem digitChar_eq : ∀ n < 10, Char.ofNat (48 + n).toUInt8.toNat = Nat.digitChar n := by decide

theorem digitChars_digits (n : Nat) : digitChars (digits n) = Nat.toDigits 10 n := by
  induction n using digits.induct with
  | case1 n h =>
    rw [digits, if_pos h, Nat.toDigits_of_lt_base h]
    exact congrArg (fun c => [c]) (digitChar_eq n h)
  | case2 n h ih =>
    rw [digits, if_neg h, Nat.toDigits_of_base_le (by decide) (Nat.not_lt.1 h), digitChars,
      List.map_append, ← ih]
    exact congrArg (fun c => digitChars (digits (n / 10)) ++ [c])
      (digitChar_eq _ (Nat.mod_lt n (by decide)))

/-- The number of a request is written in base ten. -/
theorem nonceText_eq_toString (n : UInt64) : nonceText n = toString n.toNat := by
  rw [nonceText_eq, digitChars_digits]
  exact Nat.repr_eq_ofList_toDigits.symm

/-! ## What a request says -/

/-- The kind of event that a request is about. -/
def event? : Command → Option String
  | subscribe _ k => some k.wireName
  | unsubscribe _ k => some k.wireName
  | setActivity .. => none

/-- What a written request says to a reader of messages. -/
def content (c : Command) : Content :=
  .object [("cmd", .text c.tag), ("nonce", .text (nonceText c.nonce)),
    (c.argument.1, c.argument.2.content)]

theorem spells_encode (c : Command) : Spells c.content c.encode :=
  spells_object [("cmd", .text c.tag), ("nonce", .text (nonceText c.nonce)), c.argument]

theorem readable_content (c : Command) : Readable (.record InboundMessage.shape) c.content := by
  have htext : ∀ s, Readable .text (.text s) := fun s => ⟨.text s, nofun⟩
  refine readable_object_iff.2 fun k hk => ?_
  simp only [InboundMessage.shape, List.mem_cons, List.not_mem_nil, or_false] at hk
  rcases hk with rfl | rfl | rfl | rfl <;> cases c <;>
    simp [argument, Value.content, htext]

/-- The message that a request is when it comes back. -/
def echo (c : Command) : InboundMessage where
  command := some c.tag
  event := c.event?
  nonce := some (toString c.nonce.toNat)
  data := none

theorem ofContent_content (c : Command) : InboundMessage.ofContent c.content = c.echo := by
  cases c <;> simp [InboundMessage.ofContent, content, argument, Value.content, echo, event?, given?,
    value?, given, text?, List.lookup_cons, List.lookup_nil, nonceText_eq_toString]

/-- No request is about errors. -/
theorem event?_ne_error (c : Command) : c.event? ≠ some InboundMessage.errorEvent := by
  have hname : ∀ k : Subscription, some k.wireName ≠ some InboundMessage.errorEvent := by
    intro k
    cases k <;> decide
  cases c with
  | subscribe n k => exact hname k
  | unsubscribe n k => exact hname k
  | setActivity n pid activity => exact nofun

theorem classify_echo (c : Command) : c.echo.classify = .error .response :=
  if_neg c.event?_ne_error

/-- **A request that comes back is read as an answer.** Whatever texts a request
carries, what is written for it is accepted as a message with its name, its
number in base ten, its kind of event if it has one, and no data; it tells
nothing to the embedder. -/
theorem parse_encode (c : Command) :
    ∃ m, InboundMessage.parse c.encode = .ok m ∧
      m.command = some c.tag ∧ m.event = c.event? ∧
      m.nonce = some (toString c.nonce.toNat) ∧ m.data = none ∧
      m.classify = .error .response ∧ InboundMessage.eventOf? c.encode = none := by
  have hparse := InboundMessage.parse_spells c.spells_encode c.readable_content nofun
    blanks_nil blanks_nil
  rw [List.nil_append, List.append_nil, ofContent_content] at hparse
  refine ⟨c.echo, hparse, rfl, rfl, rfl, rfl, c.classify_echo, ?_⟩
  rw [InboundMessage.eventOf?, hparse]
  dsimp only
  rw [classify_echo]

end PresenceLink.Command
