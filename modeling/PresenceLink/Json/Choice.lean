import PresenceLink.Json.Mismatch

/-!
# Reading one of several names

A choice is written as a name, or as an object whose only member has that name
and the value `null`.
-/

namespace PresenceLink

namespace Json

inductive Chooser where
  /-- Before the document. -/
  | document
  /-- Inside a name that stands alone. -/
  | alone (state : TextState)
  /-- Before the name of the only member. -/
  | before
  /-- Inside the name of the only member. -/
  | name (state : TextState)
  | colon (chosen : String)
  /-- Before the value of the only member. -/
  | value (chosen : String)
  | null (chosen : String) (owed : Bytes)
  | mismatch (state : Mismatch)
  /-- Behind the value of the only member. -/
  | closing (chosen : String)
  /-- Behind the document. -/
  | done (chosen : String)
  deriving DecidableEq, Repr

namespace Chooser

def mismatchNext (b : UInt8) : Except Fault Chooser :=
  match Mismatch.ofFirst b with
  | .error e => .error e
  | .ok state => .ok (mismatch state)

/-- A name has to be one of those offered. -/
def choose (names : List String) (chosen : String) (onward : Chooser) : Except Fault Chooser :=
  if names.contains chosen then .ok onward else .error .mismatch

/-- Read one octet. -/
def next (names : List String) (c : Chooser) (b : UInt8) : Except Fault Chooser :=
  match c with
  | document =>
    if isBlank b then .ok c
    else if b = 34 then .ok (alone .start)
    else if b = 123 then .ok before
    else .error .malformed
  | alone state =>
    match state.next b with
    | .error e => .error e
    | .ok (.more state) => .ok (alone state)
    | .ok (.closed text) => choose names text (done text)
  | before =>
    if isBlank b then .ok c
    else if b = 34 then .ok (name .start)
    else .error .malformed
  | name state =>
    match state.next b with
    | .error e => .error e
    | .ok (.more state) => .ok (name state)
    | .ok (.closed text) => choose names text (colon text)
  | colon chosen =>
    if isBlank b then .ok c else if b = 58 then .ok (value chosen) else .error .malformed
  | value chosen =>
    if isBlank b then .ok c
    else if b = 110 then .ok (null chosen [117, 108, 108])
    else mismatchNext b
  | null _ [] => .error .malformed
  | null chosen (x :: owed) =>
    if b ≠ x then .error .malformed
    else if owed.isEmpty then .ok (closing chosen)
    else .ok (null chosen owed)
  | mismatch state =>
    match state.next b with
    | .error e => .error e
    | .ok state => .ok (mismatch state)
  | closing chosen =>
    if isBlank b then .ok c else if b = 125 then .ok (done chosen) else .error .malformed
  | done _ => if isBlank b then .ok c else .error .malformed

/-- Read octets until the first fault. -/
def run (names : List String) (c : Chooser) : Bytes → Except Fault Chooser
  | [] => .ok c
  | b :: rest =>
    match c.next names b with
    | .error e => .error e
    | .ok c => run names c rest

/-- The chosen name, if the document may end here. -/
def finish : Chooser → Except Fault String
  | done chosen => .ok chosen
  | mismatch state => .error state.atEnd
  | _ => .error .truncated

end Chooser

/-- Read a document that chooses one of several names. -/
def readChoice (names : List String) (bytes : Bytes) : Except Fault String :=
  (Chooser.document.run names bytes).bind Chooser.finish

end Json

end PresenceLink
