import Mathlib.Data.List.Forall2
import Mathlib.Data.Set.Insert
import Mathlib.Tactic.Tauto
import PresenceLink.Proofs.Command.Written
import PresenceLink.Transport

/-!
# The subscriptions that a peer holds

On a new link a peer sends no events. A request to subscribe that reaches it
adds a kind, one to unsubscribe takes a kind away, and nothing else changes
the set. A request is known by its written form, whatever number it carries.

* `hear_subscribe`, `hear_unsubscribe`, `hear_setActivity`: what each request
  does to the set;
* `hearAll_subscribe`, `hearAll_unsubscribe`: the same of several requests;
* `received_connect`, `received_read`, `received_write`: the payloads that have
  reached a peer.
-/

namespace PresenceLink

namespace Peer

/-- The set after a payload has reached the peer. -/
def hear (s : Set Subscription) (payload : Bytes) : Set Subscription :=
  {k | (∃ n, payload = (Command.subscribe n k).encode) ∨
    (k ∈ s ∧ ¬ ∃ n, payload = (Command.unsubscribe n k).encode)}

def hearAll (s : Set Subscription) (payloads : List Bytes) : Set Subscription :=
  payloads.foldl hear s

theorem hear_subscribe (s : Set Subscription) (n : UInt64) (k : Subscription) :
    hear s (Command.subscribe n k).encode = insert k s := by
  ext j
  simp only [hear, Set.mem_ofPred_eq, Set.mem_insert_iff]
  constructor
  · rintro (⟨m, h⟩ | ⟨hj, -⟩)
    · cases Command.toJson_inj (Json.render_inj h)
      exact Or.inl rfl
    · exact Or.inr hj
  · rintro (rfl | hj)
    · exact Or.inl ⟨n, rfl⟩
    · refine Or.inr ⟨hj, ?_⟩
      rintro ⟨m, h⟩
      cases Command.toJson_inj (Json.render_inj h)

theorem hear_unsubscribe (s : Set Subscription) (n : UInt64) (k : Subscription) :
    hear s (Command.unsubscribe n k).encode = s \ {k} := by
  ext j
  simp only [hear, Set.mem_ofPred_eq, Set.mem_sdiff, Set.mem_singleton_iff]
  constructor
  · rintro (⟨m, h⟩ | ⟨hj, hn⟩)
    · cases Command.toJson_inj (Json.render_inj h)
    · exact ⟨hj, fun e => hn ⟨n, by rw [e]⟩⟩
  · rintro ⟨hj, hne⟩
    refine Or.inr ⟨hj, ?_⟩
    rintro ⟨m, h⟩
    cases Command.toJson_inj (Json.render_inj h)
    exact hne rfl

theorem hear_setActivity (s : Set Subscription) (n : UInt64) (pid : UInt32)
    (activity : Option Presence) : hear s (Command.setActivity n pid activity).encode = s := by
  ext j
  simp only [hear, Set.mem_ofPred_eq]
  constructor
  · rintro (⟨m, h⟩ | ⟨hj, -⟩)
    · cases Command.toJson_inj (Json.render_inj h)
    · exact hj
  · intro hj
    refine Or.inr ⟨hj, ?_⟩
    rintro ⟨m, h⟩
    cases Command.toJson_inj (Json.render_inj h)

/-! ## Several requests -/

theorem hearAll_append (s : Set Subscription) (payloads more : List Bytes) :
    hearAll s (payloads ++ more) = hearAll (hearAll s payloads) more := List.foldl_append

theorem hearAll_subscribe {commands : List Command} {kinds : List Subscription}
    (h : List.Forall₂ (fun c k => ∃ n, c = .subscribe n k) commands kinds)
    (s : Set Subscription) :
    hearAll s (commands.map Command.encode) = s ∪ {k | k ∈ kinds} := by
  induction h generalizing s with
  | nil =>
    ext k
    simp [hearAll]
  | @cons c k commands kinds hc _ ih =>
    obtain ⟨n, rfl⟩ := hc
    change hearAll (hear s (Command.subscribe n k).encode) (commands.map Command.encode) = _
    rw [hear_subscribe, ih]
    ext j
    simp only [Set.mem_union, Set.mem_insert_iff, Set.mem_ofPred_eq, List.mem_cons]
    tauto

theorem hearAll_unsubscribe {commands : List Command} {kinds : List Subscription}
    (h : List.Forall₂ (fun c k => ∃ n, c = .unsubscribe n k) commands kinds)
    (s : Set Subscription) :
    hearAll s (commands.map Command.encode) = s \ {k | k ∈ kinds} := by
  induction h generalizing s with
  | nil =>
    ext k
    simp [hearAll]
  | @cons c k commands kinds hc _ ih =>
    obtain ⟨n, rfl⟩ := hc
    change hearAll (hear s (Command.unsubscribe n k).encode) (commands.map Command.encode) = _
    rw [hear_unsubscribe, ih]
    ext j
    simp only [Set.mem_sdiff, Set.mem_singleton_iff, Set.mem_ofPred_eq, List.mem_cons]
    tauto

/-! ## The calls on a transport -/

/-- The payloads that have reached the peer since the link came up, after
another call. -/
def receive (payloads : List Bytes) : Call → List Bytes
  | .connect (.ok .connected) => []
  | .write payload (.ok _) => payloads ++ [payload]
  | _ => payloads

def received (calls : List Call) : List Bytes := calls.foldl receive []

/-- The kinds of event that the peer sends on a link with these calls. -/
def subscribed (calls : List Call) : Set Subscription := hearAll ∅ (received calls)

theorem received_append (calls more : List Call) :
    received (calls ++ more) = more.foldl receive (received calls) := List.foldl_append

theorem received_connect (calls : List Call) :
    received (calls ++ [.connect (.ok .connected)]) = [] := by
  rw [received_append]
  rfl

theorem received_read (calls : List Call)
    (results : List (Except TransportError (Option Bytes))) :
    received (calls ++ results.map Call.read) = received calls := by
  rw [received_append]
  generalize received calls = payloads
  induction results with
  | nil => rfl
  | cons r results ih => exact ih

theorem received_write (calls : List Call) (batch : List (Bytes × Except TransportError Unit))
    (h : ∀ w ∈ batch, w.2 = .ok ()) :
    received (calls ++ batch.map fun w => .write w.1 w.2) =
      received calls ++ batch.map Prod.fst := by
  rw [received_append]
  generalize received calls = payloads
  induction batch generalizing payloads with
  | nil => exact (List.append_nil _).symm
  | cons w batch ih =>
    obtain ⟨payload, result⟩ := w
    have hw : result = .ok () := h (payload, result) List.mem_cons_self
    have hrest := ih (fun v hv => h v (List.mem_cons_of_mem _ hv)) (payloads ++ [payload])
    rw [List.append_assoc] at hrest
    rw [hw]
    exact hrest

end Peer

end PresenceLink
