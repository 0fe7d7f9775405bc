import PresenceLink.Json.Number

/-!
# A value of the wrong type

Where a value of one type is due and another is found, the document is refused
as a mismatch: at once for a bracket, and behind the value if it is a word, a
number or a text, which must be well formed for that.
-/

namespace PresenceLink

namespace Json

inductive Mismatch where
  | word (owed : Bytes)
  | number (form : NumberForm) (seen : Bytes)
  | text (state : TextState)
  deriving DecidableEq, Repr

namespace Mismatch

/-- The first octet of a value that nothing due here can start with. -/
def ofFirst (b : UInt8) : Except Fault Mismatch :=
  match owedWord? b, NumberForm.ofFirst? b with
  | some owed, _ => .ok (.word owed)
  | none, some form => .ok (.number form [b])
  | none, none =>
    if b = 34 then .ok (.text .start)
    else if b = 91 ∨ b = 123 then .error .mismatch
    else .error .malformed

/-- The fault at the end of a number. -/
def ofNumber (seen : Bytes) : Fault :=
  match integerOf seen.reverse with
  | .error e => e
  | .ok _ => .mismatch

/-- Read one octet; the end of the value is a fault. -/
def next (m : Mismatch) (b : UInt8) : Except Fault Mismatch :=
  match m with
  | word [] => .error .malformed
  | word (c :: owed) =>
    if b ≠ c then .error .malformed
    else if owed.isEmpty then .error .mismatch
    else .ok (word owed)
  | number form seen =>
    match form.next b with
    | .error e => .error e
    | .ok (some form) => .ok (number form (b :: seen))
    | .ok none => .error (ofNumber seen)
  | text state =>
    match state.next b with
    | .error e => .error e
    | .ok (.more state) => .ok (text state)
    | .ok (.closed _) => .error .mismatch

/-- The fault of a document that ends here. -/
def atEnd (m : Mismatch) : Fault :=
  match m with
  | number form seen => if form.complete then ofNumber seen else .truncated
  | _ => .truncated

end Mismatch

end Json

end PresenceLink
