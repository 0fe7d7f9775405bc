import PresenceLink.Proofs.Backoff
import PresenceLink.Proofs.Supervisor.Events

/-!
# When the next attempt is due

Every attempt to open the transport puts off the next one, and so does the loss
of the link or of a pending attempt. The delays double from the base delay up
to the limit, and start over when the link comes up.

* `timer_tick`: the time of the next attempt is told by the calls of a tick;
* `paced_turns`: the delay at any point of a run, by what has put it off;
* `next_attempt`: the time of the next attempt at any point of a run, and how
  close two attempts can be.
-/

namespace PresenceLink

/-- An attempt to open. -/
def Call.isConnect : Call → Bool
  | connect _ => true
  | _ => false

/-- An attempt to open that brings the link up. -/
def Call.isUp : Call → Bool
  | connect (.ok .connected) => true
  | _ => false

/-- A call at which the next attempt is put off. -/
def Call.defers : Call → Bool
  | connect _ | close => true
  | _ => false

/-! ## The calls of a tick -/

/-- The delays of a supervisor and the time of its next attempt. -/
abbrev Timer := Backoff × Instant

namespace Timer

/-- Put off the next attempt by the next delay. -/
def defer (now : Instant) (timer : Timer) : Timer :=
  (timer.1.next.2, Supervisor.due now timer.1.next.1)

/-- What becomes of a timer at a call. -/
def call (now : Instant) (timer : Timer) : Call → Timer
  | .connect (.ok .connected) => ((timer.defer now).1.reset, (timer.defer now).2)
  | .connect _ | .close => timer.defer now
  | _ => timer

theorem quiet_reads (payloads : List Bytes) : ∀ c ∈ reads payloads, c.defers = false := by
  intro c hc
  obtain ⟨payload, -, rfl⟩ := List.mem_map.1 hc
  rfl

theorem quiet_writes (batch : List Handover) : ∀ c ∈ writes batch, c.defers = false := by
  intro c hc
  obtain ⟨w, -, rfl⟩ := List.mem_map.1 hc
  rfl

theorem countP_quiet {calls : List Call} (h : ∀ c ∈ calls, c.defers = false) :
    calls.countP Call.defers = 0 ∧ calls.countP Call.isConnect = 0 := by
  have hconnect : ∀ c ∈ calls, c.isConnect = false := by
    intro c hc
    cases c with
    | connect result => cases h _ hc
    | _ => rfl
  simp only [List.countP_eq_zero, Bool.not_eq_true]
  exact ⟨h, hconnect⟩

theorem calls_quiet (now : Instant) (timer : Timer) {calls : List Call}
    (h : ∀ c ∈ calls, c.defers = false) : calls.foldl (call now) timer = timer := by
  induction calls with
  | nil => rfl
  | cons c calls ih =>
    obtain ⟨hc, hcalls⟩ := List.forall_mem_cons.1 h
    have hkept : timer.call now c = timer := by cases c <;> first | rfl | cases hc
    rw [List.foldl_cons, hkept, ih hcalls]

/-- Of several calls that put off the next attempt the last one decides. -/
theorem calls_down {base highest : Duration} {n : Nat} (now : Instant) {timer : Timer}
    (h : timer.1.Paced base highest n) {calls : List Call} (hup : calls.any Call.isUp = false) :
    let timer' := calls.foldl (call now) timer
    timer'.1.Paced base highest (n + calls.countP Call.defers) ∧
      (calls.countP Call.defers = 0 → timer'.2 = timer.2) ∧
      (0 < calls.countP Call.defers → ∃ delay,
        delay.toNanos = Backoff.delayAfter base highest (n + calls.countP Call.defers - 1) ∧
        timer'.2 = Supervisor.due now delay) := by
  induction calls generalizing timer n with
  | nil => exact ⟨h, fun _ => rfl, fun hpos => absurd hpos (Nat.lt_irrefl 0)⟩
  | cons c calls ih =>
    obtain ⟨hc, hcalls⟩ := Bool.or_eq_false_iff.1 (List.any_cons ▸ hup)
    cases hd : c.defers with
    | false =>
      have hkept : timer.call now c = timer := by cases c <;> first | rfl | cases hd
      rw [List.foldl_cons, hkept, List.countP_cons_of_neg (by simp [hd])]
      exact ih h hcalls
    | true =>
      have hdeferred : timer.call now c = timer.defer now := by
        unfold call
        split
        · cases hc
        · rfl
        · rfl
        · rename_i hconnect hclose
          cases c with
          | connect result => exact absurd rfl (hconnect result)
          | close => exact absurd rfl hclose
          | read result => cases hd
          | write payload result => cases hd
      have hnext : (timer.defer now).1.Paced base highest (n + 1) := h.next
      obtain ⟨hpaced, hsame, hlast⟩ := ih hnext hcalls
      rw [List.foldl_cons, hdeferred, List.countP_cons_of_pos hd]
      refine ⟨by rwa [Nat.add_assoc, Nat.add_comm 1] at hpaced, fun h0 => by omega, fun _ => ?_⟩
      rcases Nat.eq_zero_or_pos (calls.countP Call.defers) with hzero | hpos
      · refine ⟨timer.1.current, ?_, hsame hzero⟩
        rw [hzero]
        exact h.current_eq
      · obtain ⟨delay, hdelay, hdue⟩ := hlast hpos
        refine ⟨delay, ?_, hdue⟩
        rw [hdelay]
        congr 1
        omega

end Timer

namespace Supervisor

/-- The time of the next attempt, unless the clock ends before a hundred years
are over. -/
theorem toNanos_due {now : Instant} (h : (now.add? farFuture).isSome) (delay : Duration) :
    (due now delay).toNanos =
      if now.toNanos + delay.toNanos < 2 ^ 63 * 1000000000 then now.toNanos + delay.toNanos
      else now.toNanos + farFuture.toNanos := by
  obtain ⟨late, hlate⟩ := Option.isSome_iff_exists.1 h
  unfold due
  cases hadd : now.add? delay with
  | some t =>
    have hrange : ¬ 2 ^ 63 * 1000000000 ≤ now.toNanos + delay.toNanos := by
      rw [show (2 : Nat) ^ 63 = 9223372036854775808 from rfl, ← Instant.add?_eq_none_iff, hadd]
      exact Option.some_ne_none t
    rw [if_pos (Nat.lt_of_not_le hrange)]
    exact Instant.toNanos_add? hadd
  | none =>
    have hrange := (Instant.add?_eq_none_iff ..).1 hadd
    rw [if_neg (by omega)]
    simp only [hlate]
    exact Instant.toNanos_add? hlate

/-- An attempt is put off by the base delay at least, or by a hundred years. -/
theorem le_toNanos_due {now : Instant} (h : (now.add? farFuture).isSome) {base highest : Duration}
    {n : Nat} {delay : Duration} (hdelay : delay.toNanos = Backoff.delayAfter base highest n) :
    now.toNanos + min base.toNanos farFuture.toNanos ≤ (due now delay).toNanos := by
  have hbase := Backoff.base_le_delayAfter base highest n
  rw [toNanos_due h]
  split <;> omega

variable {τ : Type} [Transport τ]

def timer (s : Supervisor τ) : Timer := (s.backoff, s.nextAttempt)

/-- A step at `now` whose calls tell what becomes of the timer. -/
def Timed (now : Instant) (s s' : Supervisor (Recorded τ)) : Prop :=
  ∃ calls, s'.transport.calls = s.transport.calls ++ calls ∧
    s'.timer = calls.foldl (Timer.call now) s.timer

omit [Transport τ] in
theorem Timed.trans {now : Instant} {s s' s'' : Supervisor (Recorded τ)} (h : Timed now s s')
    (h' : Timed now s' s'') : Timed now s s'' := by
  obtain ⟨calls, hcalls, htimer⟩ := h
  obtain ⟨more, hmore, htimer'⟩ := h'
  refine ⟨calls ++ more, ?_, ?_⟩
  · rw [hmore, hcalls, List.append_assoc]
  · rw [htimer', htimer, List.foldl_append]

omit [Transport τ] in
/-- A step that puts nothing off. -/
theorem timed_quiet (now : Instant) {s s' : Supervisor (Recorded τ)} (h : s'.timer = s.timer)
    {calls : List Call} (hcalls : s'.transport.calls = s.transport.calls ++ calls)
    (hquiet : ∀ c ∈ calls, c.defers = false) : Timed now s s' :=
  ⟨calls, hcalls, by rw [h, Timer.calls_quiet now _ hquiet]⟩

theorem timed_enterDisconnected (s : Supervisor (Recorded τ)) (now : Instant)
    (e : TransportError) : Timed now s (s.enterDisconnected now e).supervisor :=
  ⟨[.close], rfl, rfl⟩

theorem timed_attempt (s : Supervisor (Recorded τ)) (now : Instant) :
    Timed now s (s.attempt now).supervisor := by
  unfold attempt
  cases hc : Transport.connect (s.schedule now).transport with
  | mk result transport =>
    have hcall : transport.calls = s.transport.calls ++ [.connect result] :=
      Transport.calls_connect hc
    simp only [hc]
    cases result with
    | ok status => cases status <;> exact ⟨_, hcall, rfl⟩
    | error e =>
      have hfailed : Timed now s { s.schedule now with transport } := ⟨_, hcall, rfl⟩
      simp only
      split
      · exact hfailed.trans (timed_enterDisconnected _ now e)
      · exact hfailed

theorem timed_service {s : Supervisor (Recorded τ)} (h : s.session.queue.WellFormed)
    (now : Instant) : Timed now s (s.service now).supervisor := by
  unfold service
  split
  · obtain ⟨results, hread⟩ := Transport.calls_readAll s.transport
    have hinflow : Timed now s { s with transport := (Transport.readAll s.transport).transport } :=
      timed_quiet now rfl hread (by simp [Call.defers])
    dsimp only
    split
    · exact hinflow.trans (timed_enterDisconnected _ now _)
    · obtain ⟨batch, -, -, hcalls, -⟩ :=
        flush_ready (s := { s with transport := (Transport.readAll s.transport).transport }) h
      obtain ⟨-, hnext, hbackoff⟩ :=
        flush_frame { s with transport := (Transport.readAll s.transport).transport }
      have hflush := hinflow.trans
        (timed_quiet now (Prod.ext hbackoff hnext) hcalls (Timer.quiet_writes batch))
      split
      · rename_i s' hfl
        rwa [hfl] at hflush
      · rename_i e s' hfl
        rw [hfl] at hflush
        exact hflush.trans (timed_enterDisconnected _ now e)
  · exact timed_enterDisconnected s now _

/-- The calls of a tick tell what becomes of the timer. -/
theorem timer_tick {s : Supervisor (Recorded τ)} (h : s.session.queue.WellFormed)
    (now : Instant) :
    (s.tick now).timer = (s.tickCalls now).foldl (Timer.call now) s.timer := by
  have htimed : Timed now s (s.advance now).supervisor := by
    unfold advance
    split
    · exact timed_service h now
    · split
      · exact timed_attempt s now
      · exact timed_quiet now rfl (List.append_nil _).symm (by simp)
  obtain ⟨calls, hcalls, htimer⟩ := htimed
  have htick : (s.tick now).transport.calls = s.transport.calls ++ calls := hcalls
  rw [tickCalls, htick, List.drop_left]
  exact htimer

/-! ## How often an attempt is put off -/

/-- How often a tick puts off the next attempt: once for every attempt, and once
for the link or a pending attempt that it gives up. -/
def deferralsAt (s : Supervisor (Recorded τ)) (now : Instant) : Nat :=
  (s.tickCalls now).countP Call.isConnect +
    if (s.state = .connected ∧ (s.tick now).state ≠ .connected) ∨
      (s.state = .connecting ∧ (s.tick now).state = .disconnected) then 1 else 0

/-- How often the next attempt has been put off since the link last came up,
`n` times of these before the run. -/
def deferralsFrom (s : Supervisor (Recorded τ)) (n : Nat) : List (Turn τ) → Nat
  | [] => n
  | .tick now :: ts =>
    (s.tick now).deferralsFrom
      (if (s.tickCalls now).any Call.isUp then 0 else n + s.deferralsAt now) ts
  | t :: ts => (s.turn t).deferralsFrom n ts

end Supervisor

namespace TickStep

variable {due isOpen : Bool} {ready : List Bytes} {state state' : LinkState} {calls : List Call}
  {events : List Event}

/-- A tick puts off the next attempt at its attempts and when it closes the
transport, which is when it gives something up. -/
theorem countP_defers (h : TickStep due isOpen ready state calls events state') :
    calls.countP Call.defers = calls.countP Call.isConnect +
      if (state = .connected ∧ state' ≠ .connected) ∨
        (state = .connecting ∧ state' = .disconnected) then 1 else 0 := by
  have hreads := fun payloads => Timer.countP_quiet (Timer.quiet_reads payloads)
  have hwrites := fun batch => Timer.countP_quiet (Timer.quiet_writes batch)
  cases h with
  | waits hstate => cases state <;> simp_all
  | opens hstate => simp [Call.defers, Call.isConnect]
  | pends hstate => simp [Call.defers, Call.isConnect, hstate]
  | refused e => simp [Call.defers, Call.isConnect]
  | fails e => simp [Call.defers, Call.isConnect, List.countP_cons]
  | gone ho => simp [Call.defers, Call.isConnect]
  | unreadable ho payloads e =>
    simp [hreads payloads, Call.defers, Call.isConnect, List.countP_append]
  | @serves ho payloads batch hb hq =>
    simp [hreads payloads, hwrites batch, Call.defers, Call.isConnect, List.countP_append]
  | @unwritable ho payloads batch e hb hq =>
    simp [hreads payloads, hwrites batch, Call.defers, Call.isConnect, List.countP_append]

/-- A tick that brings the link up makes no other call. -/
theorem up_alone (h : TickStep due isOpen ready state calls events state')
    (hup : calls.any Call.isUp = true) : calls = [.connect (.ok .connected)] := by
  cases h <;> simp_all [reads, writes, Call.isUp]

/-- Nothing is opened before an attempt is due. -/
theorem due_of_connect (h : TickStep due isOpen ready state calls events state')
    (hconnect : calls.any Call.isConnect = true) : due = true := by
  cases h <;> simp_all [reads, writes, Call.isConnect]

end TickStep

namespace Supervisor

variable {τ : Type} [Transport τ]

/-- What a tick makes of the delays and of the time of the next attempt. -/
theorem paced_tick {s : Supervisor (Recorded τ)} (h : s.Sound) {base highest : Duration} {n : Nat}
    (hpaced : s.backoff.Paced base highest n) (now : Instant) :
    (s.tick now).backoff.Paced base highest
        (if (s.tickCalls now).any Call.isUp then 0 else n + s.deferralsAt now) ∧
      (s.deferralsAt now = 0 → (s.tick now).nextAttempt = s.nextAttempt) ∧
      (0 < s.deferralsAt now → ∃ delay,
        delay.toNanos = Backoff.delayAfter base highest (n + s.deferralsAt now - 1) ∧
        (s.tick now).nextAttempt = due now delay) := by
  have hstep := (tickStep_tickCalls h.wellFormed now).2
  obtain ⟨hbackoff, hnext⟩ := Prod.mk.inj (timer_tick h.wellFormed now)
  have hcount : (s.tickCalls now).countP Call.defers = s.deferralsAt now := hstep.countP_defers
  rw [hbackoff, hnext]
  cases hup : (s.tickCalls now).any Call.isUp with
  | true =>
    have hone : s.deferralsAt now = 1 := by rw [← hcount, hstep.up_alone hup]; rfl
    rw [if_pos rfl, hstep.up_alone hup, hone]
    exact ⟨hpaced.next.reset, fun h1 => absurd h1 one_ne_zero,
      fun _ => ⟨s.backoff.current, hpaced.current_eq, rfl⟩⟩
  | false =>
    rw [if_neg Bool.false_ne_true, ← hcount]
    exact Timer.calls_down now hpaced hup

/-- Nothing but a tick touches the timer. -/
theorem timer_turn (s : Supervisor (Recorded τ)) {t : Turn τ} (ht : ∀ now, t ≠ .tick now) :
    (s.turn t).timer = s.timer := by
  cases t with
  | take k => rfl
  | move m =>
    cases m with
    | queue op => rfl
    | act a =>
      cases a with
      | tick now => exact absurd rfl (ht now)
      | close => rfl
      | request a => rfl
      | world change => rfl

theorem paced_turns {s : Supervisor (Recorded τ)} (h : s.Sound) {base highest : Duration} {n : Nat}
    (hpaced : s.backoff.Paced base highest n) (ts : List (Turn τ)) :
    (s.turns ts).backoff.Paced base highest (s.deferralsFrom n ts) := by
  induction ts generalizing s n with
  | nil => exact hpaced
  | cons t ts ih =>
    by_cases ht : ∃ now, t = .tick now
    · obtain ⟨now, rfl⟩ := ht
      exact ih (s := s.tick now) (sound_turn h (.tick now)) (paced_tick h hpaced now).1
    · rw [not_exists] at ht
      obtain ⟨hbackoff, -⟩ := Prod.mk.inj (timer_turn s ht)
      have hfrom : s.deferralsFrom n (t :: ts) = (s.turn t).deferralsFrom n ts := by
        rw [deferralsFrom]
        exact ht
      rw [hfrom]
      exact ih (sound_turn h t) (by rw [hbackoff]; exact hpaced)

/-! ## How close two attempts can be -/

/-- The times of the ticks of a run. -/
def tickTimes (ts : List (Turn τ)) : List Instant :=
  ts.filterMap fun
    | .tick now => some now
    | _ => none

/-- What has been put off to a time long after `early` stays put off. -/
theorem put_off_turns {s : Supervisor (Recorded τ)} (h : s.Sound) {base highest : Duration} {n : Nat}
    (hpaced : s.backoff.Paced base highest n) (early : Instant) (ts : List (Turn τ))
    (hlate : ∀ now ∈ tickTimes ts, early.le now = true)
    (hfar : ∀ now ∈ tickTimes ts, (now.add? farFuture).isSome)
    (hput : early.toNanos + min base.toNanos farFuture.toNanos ≤ s.nextAttempt.toNanos) :
    early.toNanos + min base.toNanos farFuture.toNanos ≤ (s.turns ts).nextAttempt.toNanos := by
  induction ts generalizing s n with
  | nil => exact hput
  | cons t ts ih =>
    by_cases ht : ∃ now, t = .tick now
    · obtain ⟨now, rfl⟩ := ht
      obtain ⟨hlate, hlates⟩ := List.forall_mem_cons.1 hlate
      obtain ⟨hfar, hfars⟩ := List.forall_mem_cons.1 hfar
      obtain ⟨hpaced', hsame, hdeferred⟩ := paced_tick h hpaced now
      refine ih (s := s.tick now) (sound_turn h (.tick now)) hpaced' hlates hfars ?_
      rcases Nat.eq_zero_or_pos (s.deferralsAt now) with hzero | hpos
      · rw [hsame hzero]
        exact hput
      · obtain ⟨delay, hdelay, hdue⟩ := hdeferred hpos
        have hbase := le_toNanos_due hfar hdelay
        rw [Instant.le_iff_toNanos] at hlate
        rw [hdue]
        omega
    · rw [not_exists] at ht
      obtain ⟨hbackoff, hnext⟩ := Prod.mk.inj (timer_turn s ht)
      have htimes : tickTimes (t :: ts) = tickTimes ts := by
        rw [tickTimes, List.filterMap_cons_none]
        · rfl
        · split
          · exact absurd rfl (ht _)
          · rfl
      rw [htimes] at hlate hfar
      exact ih (sound_turn h t) (by rw [hbackoff]; exact hpaced) hlate hfar (by rw [hnext]; exact hput)

/-- **The time of the next attempt is told by how often it was put off.** Every
attempt puts off the next one, and so does the loss of the link or of a pending
attempt. The first time after the link last came up it is put off by the base
delay, and each further time by twice as much, up to the larger of the base
delay and the limit; where the clock does not reach that far it is put off by a
hundred years. Nothing else changes the time of the next attempt. If no tick is
earlier than one before it, two attempts are at least the base delay apart, or a
hundred years. -/
theorem next_attempt (t : τ) (slots slotCapacity : Nat) (pid : UInt32) (base highest : Duration)
    (start : Instant) (ts : List (Turn τ)) :
    let first :=
      ofTransport (.ofTransport t) (.ofSize slots slotCapacity pid) (.ofBounds base highest) start
    let s := first.turns ts
    (∀ now, (now.add? farFuture).isSome →
      let j := first.deferralsFrom 0 ts + s.deferralsAt now
      let delay := min (base.toNanos * 2 ^ (j - 1)) (max base.toNanos highest.toNanos)
      (s.tick now).nextAttempt.toNanos =
        if s.deferralsAt now = 0 then s.nextAttempt.toNanos
        else if now.toNanos + delay < 2 ^ 63 * 1000000000 then now.toNanos + delay
        else now.toNanos + farFuture.toNanos) ∧
      (∀ turn, (∀ now, turn ≠ .tick now) → (s.turn turn).nextAttempt = s.nextAttempt) ∧
      ∀ (earlier later : Instant) (between : List (Turn τ)),
        let times := earlier :: (tickTimes between ++ [later])
        times.Pairwise (fun a b => a.le b = true) →
        (∀ now ∈ times, (now.add? farFuture).isSome) →
        (s.tickCalls earlier).any Call.isConnect = true →
        (((s.tick earlier).turns between).tickCalls later).any Call.isConnect = true →
        earlier.toNanos + min base.toNanos farFuture.toNanos ≤ later.toNanos := by
  intro first s
  have hfirst : first.Sound := sound_ofTransport t slots slotCapacity pid (.ofBounds base highest) start
  have hs : s.Sound := sound_turns hfirst ts
  have hpaced : s.backoff.Paced base highest (first.deferralsFrom 0 ts) :=
    paced_turns hfirst (Backoff.paced_ofBounds base highest) ts
  refine ⟨?_, fun turn hturn => (Prod.mk.inj (timer_turn s hturn)).2, ?_⟩
  · intro now hfar j delay
    obtain ⟨-, hsame, hdeferred⟩ := paced_tick hs hpaced now
    split
    · rename_i hzero
      rw [hsame hzero]
    · rename_i hpos
      obtain ⟨waited, hwaited, hdue⟩ := hdeferred (Nat.pos_of_ne_zero hpos)
      rw [hdue, toNanos_due hfar, hwaited]
      rfl
  · intro earlier later between times hsorted hfar hopen hopen'
    obtain ⟨hlate, -⟩ := List.pairwise_cons.1 hsorted
    obtain ⟨hpaced', -, hdeferred⟩ := paced_tick hs hpaced earlier
    have hpos : 0 < s.deferralsAt earlier := by
      have hcount := List.countP_pos_iff.2 (List.any_eq_true.1 hopen)
      unfold deferralsAt
      omega
    obtain ⟨delay, hdelay, hdue⟩ := hdeferred hpos
    have hput := put_off_turns (sound_turn hs (.tick earlier)) hpaced' earlier between
      (fun now hnow => hlate now (List.mem_append_left _ hnow))
      (fun now hnow => hfar now (List.mem_cons_of_mem _ (List.mem_append_left _ hnow)))
      (by
        change _ ≤ (s.tick earlier).nextAttempt.toNanos
        rw [hdue]
        exact le_toNanos_due (hfar earlier (List.mem_cons_self ..)) hdelay)
    have hready := (tickStep_tickCalls
      (sound_turns (sound_turn hs (.tick earlier)) between).wellFormed later).2.due_of_connect hopen'
    rw [Instant.le_iff_toNanos] at hready
    exact Nat.le_trans hput hready

/-- An attempt that is refused at once, and one a second later. -/
theorem next_attempt_of_refusal :
    let base := Duration.ofMillis 500
    let later : Instant := { seconds := 1, nanos := 0, nanos_lt := Duration.zero.nanos_lt }
    let first := ofTransport (.ofTransport ({ opens := [.error .pipeClosed] } : Script))
      (.ofSize 1 64 7) (.ofBounds base base) .zero
    first.deferralsAt .zero = 1 ∧ (first.tick .zero).nextAttempt.toNanos = 500000000 ∧
      (first.tickCalls .zero).any Call.isConnect = true ∧
      ((first.tick .zero).tickCalls later).any Call.isConnect = true ∧
      0 + min base.toNanos farFuture.toNanos ≤ later.toNanos := by
  intro base later first
  have hclock : ∀ now ∈ [Instant.zero, later], (now.add? farFuture).isSome := by decide +kernel
  have hone : first.deferralsAt .zero = 1 := by decide +kernel
  have hopen : (first.tickCalls .zero).any Call.isConnect = true := by decide +kernel
  have hopen' : ((first.tick .zero).tickCalls later).any Call.isConnect = true := by decide +kernel
  obtain ⟨hnext, -, hapart⟩ := next_attempt ({ opens := [.error .pipeClosed] } : Script) 1 64 7
    base base .zero []
  have hwait := hnext .zero (hclock .zero (List.mem_cons_self ..))
  refine ⟨hone, ?_, hopen, hopen', ?_⟩
  · refine hwait.trans ?_
    change (if first.deferralsAt .zero = 0 then _ else _) = _
    rw [hone]
    decide +kernel
  · exact hapart .zero later [] (by decide) hclock hopen hopen'

end Supervisor

end PresenceLink
