import PresenceLink.Proofs.Inbound.Events
import PresenceLink.Proofs.Inbound.Frames
import PresenceLink.Proofs.Json.Refusal
import PresenceLink.Proofs.Json.Rendered

/-!
# How the texts of a message are spelled

The names in a message and the texts that it holds may be spelled in any legal
way: the message is read the same and tells the same event, with the text that
is spelled. If one of them is spelled in a way that is not legal, the message is
not read.

* `Tells`: the events that carry a text, by what the message says;
* `spelled_of_parse`: in a message that is read, every text is spelled legally;
* `texts_by_spelling`: legal spellings are read, others are refused.
-/

namespace PresenceLink.InboundMessage

open Json Json.Content

/-- What a message tells by what it says, if that is an event with a text. -/
inductive Tells (c : Content) : InboundEvent → Prop
  | joinGame {d : Content} {secret : String} (hnonce : c.given? 2 "nonce" = none)
      (hevent : c.given? 1 "evt" = some (.text "JOIN_GAME")) (hdata : c.given? 3 "data" = some d)
      (hsecret : d.given? 2 "secret" = some (.text secret)) : Tells c (.joinGame secret)
  | spectateGame {d : Content} {secret : String} (hnonce : c.given? 2 "nonce" = none)
      (hevent : c.given? 1 "evt" = some (.text "SPECTATE_GAME"))
      (hdata : c.given? 3 "data" = some d) (hsecret : d.given? 2 "secret" = some (.text secret)) :
      Tells c (.spectateGame secret)
  | error {d : Content} {number message : String} {code : Int32}
      (hnonce : c.given? 2 "nonce" = some (.text number))
      (hevent : c.given? 1 "evt" = some (.text "ERROR")) (hdata : c.given? 3 "data" = some d)
      (hcode : d.given? 0 "code" = some (.int32 code))
      (hmessage : d.given? 1 "message" = some (.text message)) : Tells c (.error code message)

theorem Tells.reports {c : Content} {event : InboundEvent} (h : Tells c event) :
    (ofContent c).Reports event := by
  cases h with
  | @joinGame d secret hnonce hevent hdata hsecret =>
    exact .joinGame (d := .ofContent d) (by simp [ofContent, hnonce])
      (by simp [ofContent, hevent, text?]) (by simp [ofContent, hdata])
      (by simp [InboundData.ofContent, hsecret, text?])
  | @spectateGame d secret hnonce hevent hdata hsecret =>
    exact .spectateGame (d := .ofContent d) (by simp [ofContent, hnonce])
      (by simp [ofContent, hevent, text?]) (by simp [ofContent, hdata])
      (by simp [InboundData.ofContent, hsecret, text?])
  | @error d number message code hnonce hevent hdata hcode hmessage =>
    exact @Reports.error _ (.ofContent d) number _ _ (by simp [ofContent, hnonce, text?])
      (by simp [ofContent, hevent, text?]) (by simp [ofContent, hdata])
      (by simp [InboundData.ofContent, hcode, int32?])
      (by simp [InboundData.ofContent, hmessage, text?])

/-- A message with a text in it that cannot be read. -/
theorem parse_fails {before front rest : Bytes} (hb : Blanks before)
    (h : ToText (.record shape) front) {fault : Fault} (hrest : readText .start rest = .error fault) :
    ∃ fault, parse (before ++ front ++ rest) = .error fault := by
  obtain ⟨fault, hread⟩ := readRecord_fails shape_distinct hb h hrest
  exact ⟨fault, by rw [parse, hread]; rfl⟩

/-- In a message that is read, every text is spelled legally. -/
theorem spelled_of_parse {before front rest : Bytes} {m : InboundMessage} (hb : Blanks before)
    (h : ToText (.record shape) front) (hm : parse (before ++ front ++ rest) = .ok m) :
    ∃ (s : String) (literal more : Bytes), SpellsText s.toList literal ∧
      rest = literal ++ 34 :: more := by
  cases hrest : readText .start rest with
  | error fault =>
    obtain ⟨fault, hfails⟩ := parse_fails hb h hrest
    rw [hfails] at hm
    cases hm
  | ok read =>
    obtain ⟨literal, hspelled, he⟩ := readText_eq_ok_iff.1 hrest
    exact ⟨read.1, literal, read.2, hspelled, he⟩

/-- **A message is read in every legal spelling and in no other.** How a text is
written is one of its spellings. Whatever the spelling, the message is what it
says, and an event comes with the text that is spelled. In a message that is
read, every name and text is spelled legally; so one with a flaw in it is
refused, whatever follows the flaw. -/
theorem texts_by_spelling :
    (∀ s, ∃ literal, SpellsText s.toList literal ∧ renderText s = 34 :: literal ++ [34]) ∧
    (∀ c bytes before after, Readable (.record shape) c → c ≠ .null → Spells c bytes →
      Blanks before → Blanks after →
        parse (before ++ bytes ++ after) = .ok (ofContent c) ∧
          ∀ event, Tells c event → (ofContent c).classify = .ok event) ∧
    (∀ before front rest m, Blanks before → ToText (.record shape) front →
      parse (before ++ front ++ rest) = .ok m →
        ∃ (s : String) (literal more : Bytes), SpellsText s.toList literal ∧
          rest = literal ++ 34 :: more) ∧
    (∀ before front literal rest, Blanks before → ToText (.record shape) front → Flawed literal →
      ∃ fault, parse (before ++ front ++ (literal ++ 34 :: rest)) = .error fault) := by
  refine ⟨fun s => ⟨_, spellsText_escape s.toList, rfl⟩, ?_, ?_, ?_⟩
  · intro c bytes before after hc hne hs hb ha
    exact ⟨parse_spells hs hc hne hb ha, fun event h => h.reports.classify⟩
  · intro before front rest m hb hfront hm
    exact spelled_of_parse hb hfront hm
  · intro before front literal rest hb hfront hflawed
    obtain ⟨fault, hrest⟩ := readText_flawed hflawed rest
    exact parse_fails hb hfront hrest

/-- A secret with a pair of surrogates and names with escapes are read; half of the
pair is not. -/
theorem texts_by_spelling_of_secret :
    (∃ m, parse (Utf8.ofString
        "\x7b\"\\u0065vt\":\"\\u004aOIN_GAME\",\"data\":\x7b\"secret\":\"\\ud83d\\uDE00\\/\"\x7d\x7d") =
        .ok m ∧ m.classify = .ok (.joinGame "😀/")) ∧
      ∃ fault, parse (Utf8.ofString
        "\x7b\"evt\":\"JOIN_GAME\",\"data\":\x7b\"secret\":\"\\ud83d\"\x7d\x7d") = .error fault := by
  obtain ⟨-, hread, -, hrefuse⟩ := texts_by_spelling
  have htext : ∀ s, Readable .text (.text s) := by
    intro s
    refine ⟨.text s, fun h => ?_⟩
    cases h
  have hdata : SpellsText "data".toList (Utf8.ofString "data") := .plain (by decide)
  have hsecret : SpellsText "secret".toList (Utf8.ofString "secret") := .plain (by decide)
  constructor
  · have hevt : SpellsText "evt".toList (Utf8.ofString "\\u0065vt") :=
      .unit (n := 0x65) rfl rfl rfl (@SpellsText.plain ['v', 't'] (by decide))
    have hjoin : SpellsText "JOIN_GAME".toList (Utf8.ofString "\\u004aOIN_GAME") :=
      .unit (n := 0x4A) rfl rfl rfl
        (@SpellsText.plain ['O', 'I', 'N', '_', 'G', 'A', 'M', 'E'] (by decide))
    have hvalue : SpellsText "😀/".toList (Utf8.ofString "\\ud83d\\uDE00\\/") :=
      @SpellsText.pair _ _ _ _ _ _ _ _ 0xD83D 0xDE00 _ _ rfl rfl rfl rfl (.short (b := 47) rfl .nil)
    have hinner : Spells (.object [("secret", .text "😀/")])
        (Utf8.ofString "\x7b\"secret\":\"\\ud83d\\uDE00\\/\"\x7d") :=
      @Spells.object [(plainMember "secret" "\"\\ud83d\\uDE00\\/\"", "secret", .text "😀/")] _
        (List.forall_mem_singleton.2 hsecret) (List.forall_mem_singleton.2 (.text hvalue))
        (.parts (.last blanks_nil blanks_nil))
    have hs := @Spells.object
      [(plainMember "\\u0065vt" "\"\\u004aOIN_GAME\"", "evt", .text "JOIN_GAME"),
        (plainMember "data" "\x7b\"secret\":\"\\ud83d\\uDE00\\/\"\x7d", "data",
          .object [("secret", .text "😀/")])] _
      (List.forall_mem_cons.2 ⟨hevt, List.forall_mem_singleton.2 hdata⟩)
      (List.forall_mem_cons.2 ⟨.text hjoin, List.forall_mem_singleton.2 hinner⟩)
      (.parts (.comma blanks_nil blanks_nil (.last blanks_nil blanks_nil)))
    have hreadable : Readable (.record shape)
        (.object [("evt", .text "JOIN_GAME"), ("data", .object [("secret", .text "😀/")])]) := by
      refine readable_object_iff.2 fun k hk => ?_
      simp only [shape, List.mem_cons, List.not_mem_nil, or_false] at hk
      rcases hk with rfl | rfl | rfl | rfl
      · simp
      · simp [htext]
      · simp
      · simp [readable_object_iff, InboundData.shape, htext]
    obtain ⟨hparse, htells⟩ := hread _ _ [] [] hreadable (by simp) hs blanks_nil blanks_nil
    exact ⟨_, hparse, htells _ (.joinGame rfl rfl rfl rfl)⟩
  · have hfits : ∀ k ∈ shape, k.1 = "evt" → Fits k.2 (.text "JOIN_GAME") := by
      intro k hk hname
      have hevt : ("evt", Shape.text) ∈ shape := by simp [shape]
      rw [known_ext shape_distinct hk hevt hname]
      exact .text _
    have hbefore : MembersBefore shape (Utf8.ofString "\"evt\":\"JOIN_GAME\",") :=
      @MembersBefore.member _ (plainMember "evt" "\"JOIN_GAME\"") "evt" (.text "JOIN_GAME") _ _ _
        blanks_nil blanks_nil (.plain (by decide)) (.text (.plain (by decide))) hfits
        (.nil blanks_nil)
    have hinner : ToText (.record InboundData.shape) (Utf8.ofString "\x7b\"secret\":\"") :=
      .member (.nil blanks_nil) (by simp [InboundData.shape]) hsecret blanks_nil blanks_nil .text
    have hfront : ToText (.record shape)
        (Utf8.ofString "\x7b\"evt\":\"JOIN_GAME\",\"data\":\x7b\"secret\":\"") :=
      .member hbefore (by simp [shape]) hdata blanks_nil blanks_nil hinner
    have hlead : Flaw (Utf8.ofString "\\ud83d") :=
      @Flaw.lead 100 56 51 100 0xD83D [] rfl rfl (by simp)
    have hlone : Flawed (Utf8.ofString "\\ud83d") := @Flawed.token [] [] _ .nil hlead
    have hframe : Utf8.ofString
        "\x7b\"evt\":\"JOIN_GAME\",\"data\":\x7b\"secret\":\"\\ud83d\"\x7d\x7d" =
        [] ++ Utf8.ofString "\x7b\"evt\":\"JOIN_GAME\",\"data\":\x7b\"secret\":\"" ++
          (Utf8.ofString "\\ud83d" ++ 34 :: Utf8.ofString "\x7d\x7d") := by decide
    rw [hframe]
    exact hrefuse [] _ _ _ blanks_nil hfront hlone

end PresenceLink.InboundMessage
