import PresenceLink.Proofs.Client.Subscriptions
import PresenceLink.Proofs.Ipc.Output
import PresenceLink.Proofs.Session.Refusal

/-!
# Requests that no frame has room for

A request is accepted if it fits into a slot of the send queue, and it goes out
over a local socket if it fits into a frame. The size of a slot is configured,
that of a frame is not. As long as slots are not larger than frames every
request that is accepted can be sent; with larger slots one that is larger than
a frame closes the link.

* `submit_accepted`: an accepted request is queued as it is written and fits
  into a slot;
* `bounds_changeAll`: nothing changes the number and the size of the slots;
* `accepted_command_is_sent`: which accepted requests can be sent;
* `long_presence_closes_link`: one that cannot.
-/

namespace PresenceLink

namespace Session

theorem submit_accepted {s : Session} (h : s.queue.WellFormed) {build : UInt64 → Command}
    {command : Command} (ha : (s.submit build).1 = some command) :
    command.encode.length ≤ s.queue.slotCapacity ∧
      ∃ buffer, (s.submit build).2.queue.toFifo.live =
        s.queue.toFifo.live ++ [⟨.committed command.encode, buffer⟩] := by
  have hv : s.vacant ≠ 0 := by
    intro hv
    rw [submit_of_vacant_eq_zero hv] at ha
    cases ha
  obtain ⟨hc, buffer, free, hf, -⟩ := exists_free hv
  obtain ⟨hanswer, -, -, hview⟩ := submit_spec h hc hf build
  have hsize := h.size_free buffer (by rw [hf]; exact List.mem_cons_self)
  rw [ha] at hanswer
  split at hanswer
  · rename_i hfit
    cases hanswer
    refine ⟨hfit, (build s.nextNonce).encode ++ buffer.drop (build s.nextNonce).encode.length, ?_⟩
    rw [hview, Command.reservation, if_pos (hsize ▸ hfit)]
  · cases hanswer

/-- Nothing changes how many slots there are or how large they are. -/
theorem bounds_changeAll {s : Session} (h : s.queue.WellFormed) (changes : List Change) :
    (s.changeAll changes).queue.toFifo.bounds = s.queue.toFifo.bounds := by
  refine (queue_changeAll (P := fun q => q.WellFormed ∧ q.toFifo.bounds = s.queue.toFifo.bounds) ?_
    ⟨h, rfl⟩ changes).2
  rintro q op ⟨hwf, hq⟩
  obtain ⟨hwf', hstep⟩ := SendQueue.step_toFifo hwf op
  have hbounds := Fifo.bounds_step q.toFifo op
  rw [hstep] at hbounds
  exact ⟨hwf', hbounds.trans hq⟩

theorem slotCapacity_changeAll {s : Session} (h : s.queue.WellFormed) (changes : List Change) :
    (s.changeAll changes).queue.slotCapacity = s.queue.slotCapacity :=
  congrArg Prod.snd (bounds_changeAll h changes)

end Session

namespace Client

variable {τ α : Type}

/-- **Which accepted requests can be sent.** Whatever has happened to a client,
a request that it accepts is queued as it is written and fits into a slot of its
configuration. A local socket that is up and takes what it is given can send it
if it fits into a frame, and otherwise reports that and is closed. If the slots
are not larger than frames it can always be sent. -/
theorem accepted_command_is_sent {t : τ} {config : Config} {handlers : Handlers α} {pid : UInt32}
    {now : Instant} {c : Client τ α} (hs : start t config handlers pid now = .ok c)
    (changes : List Session.Change) {build : UInt64 → Command} {command : Command}
    (ha : ((c.session.changeAll changes).submit build).1 = some command)
    {link : Ipc} {peer : Connection} (hready : link.state = .ready)
    (hpeer : link.host.stream? = some peer) (hdeaf : peer.deaf = false) :
    let s := c.session.changeAll changes
    (∃ buffer, (s.submit build).2.queue.toFifo.live =
      s.queue.toFifo.live ++ [⟨.committed command.encode, buffer⟩]) ∧
    command.encode.length ≤ Nat.max config.maxMessageSize 256 ∧
    (command.encode.length ≤ Frame.maxPayload →
      ∃ link', link.write command.encode = (.ok (), link') ∧ link'.isOpen = true) ∧
    (Frame.maxPayload < command.encode.length →
      link.write command.encode = (.error (Frame.tooLarge command.encode.length), link.close)) ∧
    (config.maxMessageSize ≤ Frame.maxPayload →
      ∃ link', link.write command.encode = (.ok (), link') ∧ link'.isOpen = true) := by
  intro s
  obtain ⟨-, rfl⟩ := start_eq_ok_iff.1 hs
  have hwf : (fresh t config handlers pid now).session.queue.WellFormed :=
    SendQueue.wellFormed_ofSize ..
  obtain ⟨hfit, hqueued⟩ := Session.submit_accepted (Session.wellFormed_changeAll hwf changes) ha
  rw [Session.slotCapacity_changeAll hwf] at hfit
  have hsize : command.encode.length ≤ Nat.max config.maxMessageSize 256 :=
    Nat.le_trans hfit (Nat.max_le.2 ⟨Nat.le_refl _, Nat.le_trans (by decide) (Nat.le_max_right ..)⟩)
  have hwrite := Ipc.write_spec (Ipc.online_of_stream hpeer hdeaf) hready command.encode
  have hsent : command.encode.length ≤ Frame.maxPayload →
      ∃ link', link.write command.encode = (.ok (), link') ∧ link'.isOpen = true := by
    intro hle
    rcases hwrite with ⟨-, link', hw, hstate, honline'⟩ | ⟨hlarge, -⟩
    · exact ⟨link', hw, honline'.isOpen hstate⟩
    · exact absurd hle (Nat.not_le.2 hlarge)
  refine ⟨hqueued, hsize, hsent, fun hlarge => ?_, fun hconfig => hsent ?_⟩
  · rcases hwrite with ⟨hle, -⟩ | ⟨-, hw⟩
    · exact absurd hle (Nat.not_le.2 hlarge)
    · exact hw
  · exact Nat.le_trans hsize (Nat.max_le.2 ⟨hconfig, by decide⟩)

/-- A socket that is up and takes what it is given. -/
def openLink : Ipc where
  applicationId := "1"
  socketPath := none
  environment := []
  host := { connection := some { path := "s" } }
  state := .ready

/-- A request with the usual configuration. -/
theorem accepted_command_is_sent_of_default :
    let config := (Config.ofApplicationId "1").withDrive .manual
    let build : UInt64 → Command := fun n => .setActivity n 7 none
    ∃ c, start ({} : Script) config ({} : Handlers Unit) 7 .zero = .ok c ∧
      (c.session.submit build).1 = some (.setActivity 1 7 none) ∧
      openLink.state = .ready ∧ openLink.host.stream? = some { path := "s" } ∧
      ∃ link', openLink.write (Command.setActivity 1 7 none).encode = (.ok (), link') ∧
        link'.isOpen = true := by
  intro config build
  let c := fresh ({} : Script) config ({} : Handlers Unit) 7 .zero
  have hvalid : config.validate = none := by decide +kernel
  have hs : start ({} : Script) config ({} : Handlers Unit) 7 .zero = .ok c :=
    start_eq_ok_iff.2 ⟨hvalid, rfl⟩
  have ha : (c.session.submit build).1 = some (.setActivity 1 7 none) := by decide +kernel
  have hready : openLink.state = .ready := rfl
  have hpeer : openLink.host.stream? = some { path := "s" } := rfl
  obtain ⟨-, -, -, -, hsent⟩ := accepted_command_is_sent hs [] ha hready hpeer rfl
  exact ⟨c, hs, ha, hready, hpeer, hsent (by decide)⟩

/-! ## A slot that is larger than a frame -/

/-- A presence that only has details takes up little more than these. -/
theorem length_encode_details (details : String) (n : UInt64) (pid : UInt32) :
    (Command.setActivity n pid (some { details := some details })).encode.length ≤
      (Json.renderText details).length + 150 := by
  have hpresence : (Presence.toJson { details := some details }).render.length =
      (Json.renderText details).length + 29 := by
    have hdetails : (Json.renderText "details").length = 9 := rfl
    have hinstance : (Json.renderText "instance").length = 10 := rfl
    have hfalse : (Json.Value.bool false).render.length = 5 := by decide
    have hmembers : Presence.members { details := some details } =
        [("details", .text details), ("instance", .bool false)] := rfl
    rw [Presence.toJson, hmembers, Json.render_object, Json.flatten_memberPieces]
    simp only [Json.joined, Json.renderMember, ↓reduceIte, Bool.false_eq_true, List.nil_append,
      Json.render_text, List.length_append, List.length_cons, List.length_nil, hdetails, hinstance,
      hfalse]
    omega
  have hlength := Command.length_encode_setActivity_le n pid (some { details := some details })
  rw [Command.activityJson, hpresence] at hlength
  omega

/-- A presence that is larger than a frame and fits into the slots of a new
client is accepted, and closes the link. -/
theorem sent_of_long_details {τ α : Type} {t : τ} {config : Config} {handlers : Handlers α}
    {pid : UInt32} {now : Instant} {c : Client τ α} (hs : start t config handlers pid now = .ok c)
    {details : String} (hlong : Frame.maxPayload < details.toList.length)
    (hfit : 6 * (Utf8.ofString details).length + 152 ≤ config.maxMessageSize) :
    (c.updatePresence { details := some details }).1 = true ∧
      ∃ command, (c.session.setActivity (some { details := some details })).1 = some command ∧
        openLink.write command.encode =
          (.error (Frame.tooLarge command.encode.length), openLink.close) := by
  obtain ⟨-, rfl⟩ := start_eq_ok_iff.1 hs
  have hwf : (fresh t config handlers pid now).session.queue.WellFormed :=
    SendQueue.wellFormed_ofSize ..
  generalize hc : fresh t config handlers pid now = c at hs hwf
  have hslot : config.maxMessageSize ≤ c.session.queue.slotCapacity := by
    rw [← hc]
    exact Nat.le_trans (Nat.le_max_left ..) (Nat.le_max_left ..)
  have hvacant : c.session.vacant ≠ 0 := by
    rw [Session.vacant_of_open (by rw [← hc]; rfl), ← hc]
    change (SendQueue.ofSize config.queueSlots config.slotCapacity).toFifo.free.length ≠ 0
    rw [SendQueue.toFifo_ofSize, Fifo.ofSize, List.length_replicate]
    exact Nat.ne_of_gt (Nat.le_max_right ..)
  let command : Command :=
    .setActivity c.session.nextNonce c.session.pid (some { details := some details })
  have hshort : command.encode.length ≤ c.session.queue.slotCapacity := by
    have htext := Json.length_renderText_le details
    have hlength : command.encode.length ≤ (Json.renderText details).length + 150 :=
      length_encode_details ..
    omega
  have hlarge : Frame.maxPayload < command.encode.length :=
    Nat.lt_of_lt_of_le hlong (Command.length_details_le rfl ..)
  have haccepted : (c.session.setActivity (some { details := some details })).1 = some command := by
    rw [Session.setActivity, Session.submit_eq hwf, if_neg]
    rintro (h | h)
    · exact hvacant h
    · exact absurd hshort (Nat.not_le.2 h)
  refine ⟨?_, command, haccepted, ?_⟩
  · change (c.session.setActivity (some { details := some details })).1.isSome = true
    rw [haccepted]
    rfl
  · have honline := Ipc.online_of_stream (t := openLink) rfl rfl
    rcases Ipc.write_spec honline rfl command.encode with ⟨hle, -⟩ | ⟨-, hw⟩
    · exact absurd hle (Nat.not_le.2 hlarge)
    · exact hw

/-- A slot of a million octets has room for details that no frame has room
for. -/
theorem long_presence_closes_link :
    let config := ((Config.ofApplicationId "1").withDrive .manual).withMaxMessageSize 1000000
    let presence : Presence := { details := some (String.ofList (List.replicate 66000 'x')) }
    ∃ c, start ({} : Script) config ({} : Handlers Unit) 7 .zero = .ok c ∧
      openLink.isOpen = true ∧ (∃ peer, openLink.host.stream? = some peer ∧ peer.deaf = false) ∧
      (c.updatePresence presence).1 = true ∧
      ∃ command, (c.session.setActivity (some presence)).1 = some command ∧
        openLink.write command.encode =
          (.error (Frame.tooLarge command.encode.length), openLink.close) := by
  intro config presence
  have hvalid : config.validate = none := by decide +kernel
  have hs : start ({} : Script) config ({} : Handlers Unit) 7 .zero =
      .ok (fresh ({} : Script) config {} 7 .zero) := start_eq_ok_iff.2 ⟨hvalid, rfl⟩
  have hx : Utf8.encodeChar 'x' = [120] := by decide
  have hlong : Frame.maxPayload < (String.ofList (List.replicate 66000 'x')).toList.length := by
    rw [String.toList_ofList, List.length_replicate]
    decide
  have hfit : 6 * (Utf8.ofString (String.ofList (List.replicate 66000 'x'))).length + 152 ≤
      config.maxMessageSize := by
    rw [Utf8.ofString, String.toList_ofList, Utf8.encode, List.length_flatMap, List.map_replicate,
      List.sum_replicate_nat, hx]
    decide
  exact ⟨_, hs, rfl, ⟨_, rfl, rfl⟩, sent_of_long_details hs hlong hfit⟩

end Client

end PresenceLink
