import Mathlib.Data.List.Induction
import PresenceLink.Proofs.Text.Prefix

/-!
# What is left behind a stored text

Storing a text in a buffer leaves the octets behind it as they were, and so does
forgetting it. Buffers are equal octet by octet, so two of them with the same
text differ if longer texts have left different octets behind it. Only buffers
that have held no longer text are equal if their texts are.

* `trace`, `traced_run`: every octet of a buffer, by what has been stored in it;
* `legible_run`: the text of a buffer is the text of its octets;
* `eq_iff_text_and_trace`: when buffers are equal;
* `eq_ofString_text_iff`: when a buffer is as good as new.
-/

namespace PresenceLink

namespace FixedText

variable {n : Nat}

/-- All that can be done to a buffer. -/
inductive Op where
  | empty
  | ofString (value : String)
  | set (value : String)
  | clear
  deriving DecidableEq, Repr

def act (t : FixedText n) : Op → FixedText n
  | .empty => FixedText.empty
  | .ofString value => FixedText.ofString value
  | .set value => t.set value
  | .clear => t.clear

def run (ops : List Op) : FixedText n := ops.foldl act FixedText.empty

/-- The octets that are kept of a text. -/
def kept (n : Nat) (value : String) : Bytes := (Utf8.ofString value).take (cut n value)

/-- What has been stored since the buffer was new, latest first. -/
def storedAfter (n : Nat) (stored : List Bytes) : Op → List Bytes
  | .empty => []
  | .ofString value => [kept n value]
  | .set value => kept n value :: stored
  | .clear => stored

def stored (n : Nat) (ops : List Op) : List Bytes := ops.foldl (storedAfter n) []

/-- The octet that texts leave at an index, given latest first. -/
def trace : List Bytes → Nat → UInt8
  | [], _ => 0
  | octets :: older, i => octets[i]?.getD (trace older i)

/-- Nothing shows of texts that end before an index. -/
theorem trace_eq_zero {stored : List Bytes} {i : Nat} (h : ∀ octets ∈ stored, octets.length ≤ i) :
    trace stored i = 0 := by
  induction stored with
  | nil => rfl
  | cons octets older ih =>
    obtain ⟨hfirst, hrest⟩ := List.forall_mem_cons.1 h
    rw [trace, List.getElem?_eq_none hfirst]
    exact ih hrest

/-! ## Octets -/

theorem length_kept (n : Nat) (value : String) : (kept n value).length = cut n value := by
  rw [kept, List.length_take, Nat.min_eq_left (cut_le_size n value)]

/-- Every octet is the one that was stored last. -/
def Traced (t : FixedText n) (stored : List Bytes) : Prop :=
  ∀ i < n, t.bytes[i]? = some (trace stored i)

theorem traced_empty : (FixedText.empty : FixedText n).Traced [] := by
  intro i hi
  simp [FixedText.empty, trace, hi]

theorem Traced.set {t : FixedText n} {stored : List Bytes} (h : t.Traced stored) (value : String) :
    (t.set value).Traced (kept n value :: stored) := by
  intro i hi
  have hlength := length_kept n value
  change (kept n value ++ t.bytes.drop (cut n value))[i]? = _
  rw [trace]
  by_cases hk : i < cut n value
  · rw [List.getElem?_append_left (hlength ▸ hk), List.getElem?_eq_getElem (hlength ▸ hk)]
    rfl
  · rw [List.getElem?_append_right (by omega), List.getElem?_drop, hlength,
      Nat.add_sub_cancel' (by omega), h i hi, List.getElem?_eq_none (by omega)]
    rfl

theorem Traced.act {t : FixedText n} {stored : List Bytes} (h : t.Traced stored) (op : Op) :
    (t.act op).Traced (storedAfter n stored op) := by
  cases op with
  | empty => exact traced_empty
  | ofString value => exact traced_empty.set value
  | set value => exact h.set value
  | clear => exact h

theorem traced_run (ops : List Op) : (run ops : FixedText n).Traced (stored n ops) := by
  induction ops using List.reverseRecOn with
  | nil => exact traced_empty
  | append_singleton ops op ih =>
    rw [run, stored, List.foldl_append, List.foldl_append]
    exact ih.act op

/-! ## Texts -/

/-- The octets of the text are those of some text. -/
def Legible (t : FixedText n) : Prop := Utf8.ofString t.text = t.content

theorem legible_of_content {t : FixedText n} {s : String} (h : t.content = Utf8.ofString s) :
    t.Legible := by
  rw [Legible, text, h, Utf8.toString?_ofString]
  rfl

theorem legible_set (t : FixedText n) (value : String) : (t.set value).Legible := by
  obtain ⟨p, rest, hrest, hlen⟩ := exists_cut n value
  refine legible_of_content (s := String.ofList p) ?_
  rw [content_set_eq_encode t hrest hlen, Utf8.ofString, String.toList_ofList]

theorem legible_empty : (FixedText.empty : FixedText n).Legible :=
  legible_of_content (s := "") rfl

theorem legible_act (t : FixedText n) (op : Op) : (t.act op).Legible := by
  cases op with
  | empty => exact legible_empty
  | ofString value => exact legible_set _ value
  | set value => exact legible_set t value
  | clear => exact legible_of_content (s := "") rfl

theorem legible_run (ops : List Op) : (run ops : FixedText n).Legible := by
  rcases List.eq_nil_or_concat ops with rfl | ⟨before, op, rfl⟩
  · exact legible_empty
  · rw [run, List.concat_eq_append, List.foldl_append]
    exact legible_act _ op

/-- Buffers are equal if their texts are, and the octets behind them. -/
theorem eq_iff_text_and_trace {t u : FixedText n} {older older' : List Bytes} (ht : t.Legible)
    (hu : u.Legible) (ho : t.Traced older) (ho' : u.Traced older') :
    t = u ↔ t.text = u.text ∧ ∀ i < n, t.length ≤ i → trace older i = trace older' i := by
  constructor
  · rintro rfl
    refine ⟨rfl, fun i hi _ => ?_⟩
    exact Option.some.inj ((ho i hi).symm.trans (ho' i hi))
  · rintro ⟨htext, htrace⟩
    have hcontent : t.content = u.content := by
      rw [← ht, ← hu, htext]
    have hlength : t.length = u.length := by
      rw [← length_content, hcontent, length_content]
    have hbytes : t.bytes = u.bytes := by
      apply List.ext_getElem?
      intro i
      rcases Nat.lt_or_ge i t.length with hi | hi
      · have hget := congrArg (·[i]?) hcontent
        simpa [content, List.getElem?_take, hi, hlength ▸ hi] using hget
      · rcases Nat.lt_or_ge i n with hn | hn
        · rw [ho i hn, ho' i hn, htrace i hn hi]
        · rw [List.getElem?_eq_none (by rwa [t.size_bytes]),
            List.getElem?_eq_none (by rwa [u.size_bytes])]
    obtain ⟨bytes, length, _, _⟩ := t
    obtain ⟨bytes', length', _, _⟩ := u
    simp only at hlength hbytes
    subst hlength hbytes
    rfl

/-- A stored text is as good as new if nothing shows behind it. -/
theorem eq_ofString_text_iff {t : FixedText n} {older : List Bytes} (ht : t.Legible)
    (ho : t.Traced older) :
    t = ofString t.text ↔ ∀ i < n, t.length ≤ i → trace older i = 0 := by
  have hsize : (Utf8.ofString t.text).length = t.length := by
    rw [ht, length_content]
  have hwhole : LongestPrefix n t.text t.text :=
    ⟨List.prefix_rfl, Nat.le_trans (Nat.le_of_eq hsize) t.length_le, fun _ hp _ => hp.length_le⟩
  have htext : t.text = (ofString t.text : FixedText n).text :=
    hwhole.unique (longestPrefix_text_set FixedText.empty t.text)
  have hnew : ∀ i, t.length ≤ i → trace [kept n t.text] i = 0 := by
    intro i hi
    have hkept : (kept n t.text).length ≤ i := by
      rw [length_kept]
      exact Nat.le_trans (cut_le_size n t.text) (Nat.le_trans (Nat.le_of_eq hsize) hi)
    exact trace_eq_zero (List.forall_mem_singleton.2 hkept)
  have hequal := eq_iff_text_and_trace ht (legible_set _ _) ho (traced_empty.set t.text)
  constructor
  · intro h i hn hi
    rw [(hequal.1 h).2 i hn hi, hnew i hi]
  · intro h
    refine hequal.2 ⟨htext, fun i hn hi => ?_⟩
    rw [h i hn hi, hnew i hi]

/-- Nothing shows behind a text if no longer one has been stored. -/
theorem eq_ofString_text {t : FixedText n} {older : List Bytes} (ht : t.Legible)
    (ho : t.Traced older) (hshort : ∀ octets ∈ older, octets.length ≤ t.length) :
    t = ofString t.text :=
  (eq_ofString_text_iff ht ho).2 fun _ _ hi =>
    trace_eq_zero fun octets hmem => Nat.le_trans (hshort octets hmem) hi

/-- A buffer in which nothing but some texts has been stored. -/
def MadeOf (texts : String → Prop) (t : FixedText n) : Prop :=
  t.Legible ∧ ∃ older, t.Traced older ∧ ∀ octets ∈ older, ∃ value, texts value ∧ octets = kept n value

theorem madeOf_empty (texts : String → Prop) : MadeOf texts (FixedText.empty : FixedText n) :=
  ⟨legible_empty, [], traced_empty, nofun⟩

theorem MadeOf.set {texts : String → Prop} {t : FixedText n} (h : t.MadeOf texts) {value : String}
    (hv : texts value) : (t.set value).MadeOf texts := by
  obtain ⟨-, older, ho, holder⟩ := h
  exact ⟨legible_set t value, _, ho.set value,
    List.forall_mem_cons.2 ⟨⟨value, hv, rfl⟩, holder⟩⟩

theorem MadeOf.eq_ofString_text {texts : String → Prop} {t : FixedText n} (h : t.MadeOf texts)
    (hshort : ∀ value, texts value → cut n value ≤ (Utf8.ofString t.text).length) :
    t = ofString t.text := by
  obtain ⟨ht, older, ho, holder⟩ := h
  refine FixedText.eq_ofString_text ht ho fun octets hmem => ?_
  obtain ⟨value, hv, rfl⟩ := holder octets hmem
  have hcut := hshort value hv
  rwa [ht, length_content, ← length_kept] at hcut

end FixedText

end PresenceLink
