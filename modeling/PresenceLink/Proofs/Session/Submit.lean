import Mathlib.Data.List.Forall2
import PresenceLink.Proofs.Session.Admission

/-!
# What a session queues

Every operation of a session adds messages behind those that wait: the written
forms of the commands it queued, in their order, and nothing else. The commands
carry the numbers of their reservations, so they grow from one command to the
next.

* `Queues.submit`: a request that is queued, and one that is refused;
* `Queues.submitEach`, `Queues.act`: several requests, and any operation;
* `Numbered.pairwise`: the numbers grow as long as they fit into a word;
* `Orderly.of_drain`: the oldest message is taken.
-/

namespace PresenceLink

/-- Commands with the numbers of reservations from `lo` on and below `hi`. The
first reservation has the number one. -/
inductive Numbered : Nat → List Command → Nat → Prop
  | nil {lo hi : Nat} : lo ≤ hi → Numbered lo [] hi
  | cons {lo r hi : Nat} {c : Command} {commands : List Command} :
      lo ≤ r → c.nonce = UInt64.ofNat (r + 1) → Numbered (r + 1) commands hi →
      Numbered lo (c :: commands) hi

namespace Numbered

theorem le {lo hi : Nat} {commands : List Command} (h : Numbered lo commands hi) : lo ≤ hi := by
  induction h with
  | nil h => exact h
  | cons h _ _ ih => omega

theorem mono {lo lo' hi : Nat} {commands : List Command} (h : Numbered lo commands hi)
    (hl : lo' ≤ lo) : Numbered lo' commands hi := by
  cases h with
  | nil h => exact .nil (Nat.le_trans hl h)
  | cons h hc ht => exact .cons (Nat.le_trans hl h) hc ht

theorem append {lo mid hi : Nat} {commands more : List Command} (h : Numbered lo commands mid)
    (h' : Numbered mid more hi) : Numbered lo (commands ++ more) hi := by
  induction h with
  | nil h => exact h'.mono h
  | cons h hc _ ih => exact .cons h hc (ih h')

theorem nonce_bounds {lo hi : Nat} {commands : List Command} (h : Numbered lo commands hi)
    (hhi : hi < 2 ^ 64) : ∀ c ∈ commands, lo < c.nonce.toNat ∧ c.nonce.toNat ≤ hi := by
  induction h with
  | nil h => simp
  | @cons lo r hi c commands h hc ht ih =>
    intro d hd
    have hle := ht.le
    rcases List.mem_cons.1 hd with rfl | hd
    · rw [hc, UInt64.toNat_ofNat_of_lt' (by simpa [UInt64.size] using (by omega : r + 1 < 2 ^ 64))]
      omega
    · have hrest := ih hhi d hd
      omega

/-- As long as numbers fit into a word, each command has a larger one than those
before it. -/
theorem pairwise {lo hi : Nat} {commands : List Command} (h : Numbered lo commands hi)
    (hhi : hi < 2 ^ 64) : commands.Pairwise fun c d => c.nonce < d.nonce := by
  induction h with
  | nil h => exact List.Pairwise.nil
  | @cons lo r hi c commands h hc ht ih =>
    refine List.Pairwise.cons ?_ (ih hhi)
    intro d hd
    have hle := ht.le
    have hbounds := ht.nonce_bounds hhi d hd
    rw [hc, UInt64.lt_iff_toNat_lt,
      UInt64.toNat_ofNat_of_lt' (by simpa [UInt64.size] using (by omega : r + 1 < 2 ^ 64))]
    exact hbounds.1

end Numbered

namespace Session

/-- What holds of a session between operations. -/
structure Orderly (s : Session) : Prop where
  idle : s.queue.Idle
  /-- The next command has the number of the next reservation. -/
  nextNonce : s.nextNonce = UInt64.ofNat (s.queue.nextAdd + 1)

/-- Queueing some commands leads from one session to another. -/
structure Queues (s : Session) (commands : List Command) (s' : Session) : Prop where
  orderly : s'.Orderly
  messages : s'.queue.messages = s.queue.messages ++ commands.map Command.encode
  numbered : Numbered s.queue.nextAdd commands s'.queue.nextAdd

theorem orderly_ofSize (slots slotCapacity : Nat) (pid : UInt32) :
    (ofSize slots slotCapacity pid).Orderly :=
  ⟨SendQueue.idle_ofSize .., rfl⟩

namespace Queues

/-- What is not about the queue queues nothing. -/
theorem of_queue_eq {s s' : Session} (h : s.Orderly) (hq : s'.queue = s.queue)
    (hn : s'.nextNonce = s.nextNonce) : Queues s [] s' := by
  refine ⟨⟨hq ▸ h.idle, ?_⟩, ?_, ?_⟩
  · rw [hn, hq, h.nextNonce]
  · rw [hq, List.map_nil, List.append_nil]
  · rw [hq]
    exact .nil (Nat.le_refl _)

theorem refl {s : Session} (h : s.Orderly) : Queues s [] s := of_queue_eq h rfl rfl

theorem trans {s s' s'' : Session} {commands more : List Command} (h : Queues s commands s')
    (h' : Queues s' more s'') : Queues s (commands ++ more) s'' := by
  refine ⟨h'.orderly, ?_, h.numbered.append h'.numbered⟩
  rw [h'.messages, h.messages, List.map_append, List.append_assoc]

/-- A request is queued as a whole or not at all, whatever its slot held. -/
theorem submit {s : Session} (h : s.Orderly) {build : UInt64 → Command}
    (hb : ∀ n, (build n).nonce = n) :
    Queues s (s.submit build).1.toList (s.submit build).2 := by
  by_cases hv : s.vacant = 0
  · rw [submit_of_vacant_eq_zero hv]
    exact refl h
  · obtain ⟨hc, buffer, free, hf, -⟩ := exists_free hv
    obtain ⟨hanswer, hnonce, hwf, hview⟩ := submit_spec h.idle.wellFormed hc hf build
    obtain ⟨hidle, hmessages, hadd⟩ := h.idle.append hwf (Command.reservation_stage _ _) hview
    have hsize := h.idle.wellFormed.size_free buffer (by rw [hf]; exact List.mem_cons_self)
    have hnext : s.nextNonce + 1 = UInt64.ofNat (s.queue.nextAdd + 1 + 1) := by
      rw [h.nextNonce]
      exact (UInt64.ofNat_add _ _).symm
    refine ⟨⟨hidle, by rw [hnonce, hnext, hadd]⟩, ?_, ?_⟩
    · rw [hmessages, hanswer, Command.message?_reservation, hsize]
      split <;> rfl
    · rw [hanswer, hadd]
      split
      · refine .cons (Nat.le_refl _) ?_ (.nil (Nat.le_refl _))
        rw [hb, h.nextNonce]
      · exact .nil (Nat.le_succ _)

theorem setActivity {s : Session} (h : s.Orderly) (activity : Option Presence) :
    Queues s (s.setActivity activity).1.toList (s.setActivity activity).2 := submit h fun _ => rfl

theorem subscribe {s : Session} (h : s.Orderly) (k : Subscription) :
    Queues s (s.subscribe k).1.toList (s.subscribe k).2 := submit h fun _ => rfl

theorem unsubscribe {s : Session} (h : s.Orderly) (k : Subscription) :
    Queues s (s.unsubscribe k).1.toList (s.unsubscribe k).2 := submit h fun _ => rfl

theorem submitEach {request : Session → Subscription → Option Command × Session}
    (hreq : ∀ s k, Orderly s → Queues s (request s k).1.toList (request s k).2)
    {s : Session} (h : s.Orderly) (kinds : List Subscription) :
    Queues s (submitEach request s kinds).1 (submitEach request s kinds).2 := by
  induction kinds generalizing s with
  | nil => exact refl h
  | cons k kinds ih =>
    have hfirst := hreq s k h
    exact hfirst.trans (ih hfirst.orderly)

theorem announce {s : Session} (h : s.Orderly) : Queues s s.announce.1 s.announce.2 :=
  submitEach (fun _ k h => subscribe h k) h _

theorem resubscribe {s : Session} (h : s.Orderly) (next : Subscriptions) :
    Queues s (s.resubscribe next).1 (s.resubscribe next).2 := by
  have hset : Queues s [] (s.setSubscriptions next) := of_queue_eq h rfl rfl
  unfold Session.resubscribe
  dsimp only
  split
  · have hadded := submitEach (fun _ k h => subscribe h k) hset.orderly
      (next.diff s.subscriptions).toList
    have hdropped := submitEach (fun _ k h => unsubscribe h k) hadded.orderly
      (s.subscriptions.diff next).toList
    exact hset.trans (hadded.trans hdropped)
  · exact hset

end Queues

/-- The operations of the embedder on a session. -/
inductive Act where
  | setActivity (activity : Option Presence)
  | subscribe (k : Subscription)
  | unsubscribe (k : Subscription)
  | register (k : Subscription)
  | setSubscriptions (subscriptions : Subscriptions)
  | close

/-- The commands that an operation queues, and the session behind it. -/
def act (s : Session) : Act → List Command × Session
  | .setActivity activity =>
    let (queued, s) := s.setActivity activity
    (queued.toList, s)
  | .subscribe k =>
    let (queued, s) := s.subscribe k
    (queued.toList, s)
  | .unsubscribe k =>
    let (queued, s) := s.unsubscribe k
    (queued.toList, s)
  | .register k =>
    (if s.subscriptions.contains k then [] else (s.subscribe k).1.toList, (s.register k).2)
  | .setSubscriptions subscriptions => ([], s.setSubscriptions subscriptions)
  | .close => ([], s.close)

theorem Queues.act {s : Session} (h : s.Orderly) (a : Act) : Queues s (s.act a).1 (s.act a).2 := by
  cases a with
  | setActivity activity => exact setActivity h activity
  | subscribe k => exact subscribe h k
  | unsubscribe k => exact unsubscribe h k
  | register k =>
    simp only [Session.act, register]
    by_cases hk : s.subscriptions.contains k = true
    · rw [if_pos hk, if_pos hk]
      split <;> exact refl h
    · rw [if_neg hk, if_neg hk]
      split
      · rename_i hc
        rw [Session.subscribe, submit_of_closed hc]
        exact refl h
      · exact subscribe h k
  | setSubscriptions subscriptions => exact of_queue_eq h rfl rfl
  | close => exact of_queue_eq h rfl rfl

/-! ## Which commands are queued -/

theorem submit_eq_some {s : Session} {build : UInt64 → Command} {c : Command}
    (h : (s.submit build).1 = some c) : ∃ n, c = build n := by
  unfold submit at h
  split at h
  · cases h
  · split at h
    · cases h
    · simp only at h
      split at h
      · cases h
        exact ⟨_, rfl⟩
      · cases h

theorem length_submitEach_le (request : Session → Subscription → Option Command × Session)
    (s : Session) (kinds : List Subscription) :
    (submitEach request s kinds).1.length ≤ kinds.length := by
  induction kinds generalizing s with
  | nil => exact Nat.le_refl _
  | cons k kinds ih =>
    have hfirst : (request s k).1.toList.length ≤ 1 := by cases (request s k).1 <;> simp
    have hrest := ih (request s k).2
    simp only [submitEach, List.length_append, List.length_cons]
    omega

/-- Each command is about one of the kinds. -/
theorem mem_submitEach {request : Session → Subscription → Option Command × Session}
    {R : Command → Subscription → Prop} (hreq : ∀ s k c, (request s k).1 = some c → R c k)
    {s : Session} {kinds : List Subscription} {c : Command}
    (hc : c ∈ (submitEach request s kinds).1) : ∃ k ∈ kinds, R c k := by
  induction kinds generalizing s with
  | nil => cases hc
  | cons k kinds ih =>
    rcases List.mem_append.1 hc with hc | hc
    · exact ⟨k, List.mem_cons_self, hreq s k c (Option.mem_toList.1 hc)⟩
    · obtain ⟨j, hj, hr⟩ := ih hc
      exact ⟨j, List.mem_cons_of_mem _ hj, hr⟩

/-- If none is refused, there is one command for each kind. -/
theorem submitEach_of_length {request : Session → Subscription → Option Command × Session}
    {R : Command → Subscription → Prop} (hreq : ∀ s k c, (request s k).1 = some c → R c k)
    {s : Session} {kinds : List Subscription}
    (h : (submitEach request s kinds).1.length = kinds.length) :
    List.Forall₂ R (submitEach request s kinds).1 kinds := by
  induction kinds generalizing s with
  | nil => exact List.Forall₂.nil
  | cons k kinds ih =>
    have hle := length_submitEach_le request (request s k).2 kinds
    simp only [submitEach, List.length_append, List.length_cons] at h ⊢
    cases hc : (request s k).1 with
    | none =>
      rw [hc] at h
      simp only [Option.toList_none, List.length_nil] at h
      omega
    | some c =>
      rw [hc] at h
      simp only [Option.toList_some, List.length_singleton] at h
      exact List.Forall₂.cons (hreq s k c hc) (ih (by omega))

theorem subscribe_of_length {s : Session} {kinds : List Subscription}
    (h : (submitEach subscribe s kinds).1.length = kinds.length) :
    List.Forall₂ (fun c k => ∃ n, c = .subscribe n k) (submitEach subscribe s kinds).1 kinds :=
  submitEach_of_length (fun _ _ _ => submit_eq_some) h

theorem unsubscribe_of_length {s : Session} {kinds : List Subscription}
    (h : (submitEach unsubscribe s kinds).1.length = kinds.length) :
    List.Forall₂ (fun c k => ∃ n, c = .unsubscribe n k) (submitEach unsubscribe s kinds).1 kinds :=
  submitEach_of_length (fun _ _ _ => submit_eq_some) h

/-- If none is refused on a link that is up, there is a command for each kind
that is new and for each that is gone. -/
theorem resubscribe_of_length {s : Session} {next : Subscriptions} (hup : s.connected = true)
    (h : (s.resubscribe next).1.length =
      (next.diff s.subscriptions).toList.length + (s.subscriptions.diff next).toList.length) :
    ∃ added dropped, (s.resubscribe next).1 = added ++ dropped ∧
      List.Forall₂ (fun c k => ∃ n, c = .subscribe n k) added
        (next.diff s.subscriptions).toList ∧
      List.Forall₂ (fun c k => ∃ n, c = .unsubscribe n k) dropped
        (s.subscriptions.diff next).toList := by
  have hup' : (s.setSubscriptions next).connected = true := hup
  rw [resubscribe, if_pos hup'] at h ⊢
  simp only [List.length_append] at h ⊢
  have hadded := length_submitEach_le subscribe (s.setSubscriptions next)
    (next.diff s.subscriptions).toList
  have hdropped := length_submitEach_le unsubscribe
    (submitEach subscribe (s.setSubscriptions next) (next.diff s.subscriptions).toList).2
    (s.subscriptions.diff next).toList
  exact ⟨_, _, rfl, subscribe_of_length (by omega), unsubscribe_of_length (by omega)⟩

/-- The handled kinds and the flags, which requests leave alone. -/
def flags (s : Session) : Subscriptions × Bool × Bool := (s.subscriptions, s.connected, s.closed)

theorem of_flags {s : Session} {subscriptions : Subscriptions} {connected closed : Bool}
    (h : s.flags = (subscriptions, connected, closed)) :
    s.subscriptions = subscriptions ∧ s.connected = connected ∧ s.closed = closed := by
  simpa [flags] using h

theorem flags_submit (s : Session) (build : UInt64 → Command) :
    (s.submit build).2.flags = s.flags := by
  obtain ⟨-, -, h1, h2, h3⟩ := s.submit_frame build
  rw [flags, h1, h2, h3, flags]

theorem flags_setActivity (s : Session) (activity : Option Presence) :
    (s.setActivity activity).2.flags = s.flags := flags_submit s _

theorem flags_register (s : Session) (k : Subscription) : (s.register k).2.flags = s.flags := by
  unfold register
  split
  · rfl
  · split
    · rfl
    · exact flags_submit s _

/-- What each of some requests leaves alone, all of them do. -/
theorem frame_submitEach {β : Type} (part : Session → β)
    {request : Session → Subscription → Option Command × Session}
    (hreq : ∀ s k, part (request s k).2 = part s) (s : Session) (kinds : List Subscription) :
    part (submitEach request s kinds).2 = part s :=
  submitEach_keeps (P := fun t => part t = part s) (fun t k ht => (hreq t k).trans ht) rfl kinds

theorem flags_announce (s : Session) : s.announce.2.flags = s.flags :=
  frame_submitEach flags (fun s _ => s.flags_submit _) s _

theorem flags_resubscribe (s : Session) (next : Subscriptions) :
    (s.resubscribe next).2.flags = (next, s.connected, s.closed) := by
  unfold resubscribe
  dsimp only
  split
  · exact (frame_submitEach flags (fun s _ => s.flags_submit _) _ _).trans
      (frame_submitEach flags (fun s _ => s.flags_submit _) _ _)
  · rfl

/-! ## Taking messages -/

/-- Taking a message changes the queue only. -/
theorem drain_frame {s s' : Session} {message : Option Bytes} (hd : s.drain = (message, s')) :
    s.queue.drain = (message, s'.queue) ∧ s' = { s with queue := s'.queue } := by
  unfold Session.drain at hd
  cases hq : s.queue.drain with
  | mk m q =>
    rw [hq] at hd
    simp only [Prod.mk.injEq] at hd
    obtain ⟨rfl, rfl⟩ := hd
    exact ⟨rfl, rfl⟩

theorem Orderly.of_drain {s s' : Session} {message : Option Bytes} (h : s.Orderly)
    (hd : s.drain = (message, s')) :
    s'.Orderly ∧ s.queue.messages = message.toList ++ s'.queue.messages ∧
      s'.queue.nextAdd = s.queue.nextAdd ∧
      (message = none → s'.queue.messages = [] ∧ s'.queue.pending = 0) := by
  obtain ⟨hq, hs'⟩ := drain_frame hd
  obtain ⟨hidle, hhead, htail, hadd, hnone⟩ := h.idle.drain
  rw [hq] at hidle hhead htail hadd hnone
  simp only at hidle hhead htail hadd hnone
  have hn : s'.nextNonce = s.nextNonce := by rw [hs']
  refine ⟨⟨hidle, by rw [hn, hadd, h.nextNonce]⟩, ?_, hadd, ?_⟩
  · rw [hhead, htail]
    cases s.queue.messages <;> rfl
  · rintro rfl
    have hempty : s.queue.messages = [] := List.head?_eq_none_iff.1 hhead.symm
    exact ⟨by rw [htail, hempty, List.tail_nil], hnone rfl⟩

end Session

end PresenceLink
