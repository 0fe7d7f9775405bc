import PresenceLink.Json.Mismatch
import PresenceLink.Json.Skip

/-!
# Reading records

A record is an object whose known members have values of known types, or the
array of those values in order. Each member may be missing or `null`; members
that are not known are skipped; a known member must not be repeated.

The reader takes one octet at a time. It stops at the first fault, so what
follows a fault does not matter.

* `run_append`: reading goes on where it stopped.
-/

namespace PresenceLink

namespace Json

/-- What a member holds. -/
inductive Shape where
  | text
  | int32
  | record (members : List (String × Shape))

/-- What was found for a member. A record has one entry for each member of its
shape, in order. -/
inductive Field where
  | null
  | text (s : String)
  | int32 (n : Int32)
  | record (entries : List (Option Field))

namespace Field

def text? : Option Field → Option String
  | some (text s) => some s
  | _ => none

def int32? : Option Field → Option Int32
  | some (int32 n) => some n
  | _ => none

def entries? : Option Field → Option (List (Option Field))
  | some (record entries) => some entries
  | _ => none

end Field

/-- An open record. -/
structure OpenRecord where
  form : Bracket
  members : List (String × Shape)
  entries : List (Option Field)
  /-- The member whose value is read; beyond all members for one that is not
  known. -/
  index : Nat

namespace OpenRecord

def opened (form : Bracket) (members : List (String × Shape)) : OpenRecord :=
  { form, members, entries := members.map fun _ => none, index := 0 }

/-- All members have been read from an array. -/
def full (f : OpenRecord) : Bool := f.members.length ≤ f.index

def shape? (f : OpenRecord) : Option Shape := (f.members[f.index]?).map (·.2)

/-- Note the value of the member being read. -/
def put (f : OpenRecord) (v : Field) : OpenRecord :=
  { f with entries := f.entries.set f.index (some v), index := f.index + 1 }

/-- Turn to the member with a given name; nothing if it was there before. -/
def select (f : OpenRecord) (name : String) : Option OpenRecord :=
  let i := f.members.findIdx fun m => m.1 == name
  match f.entries[i]? with
  | some (some _) => none
  | _ => some { f with index := i }

end OpenRecord

/-- Where the reading stands inside the innermost open record. -/
inductive Place where
  /-- Before the document. -/
  | document (members : List (String × Shape))
  /-- Before the value of a member. -/
  | value (shape : Shape)
  /-- Inside `null`. -/
  | null (owed : Bytes)
  | number (form : NumberForm) (seen : Bytes)
  | text (state : TextState)
  | mismatch (state : Mismatch)
  | skip (state : Skip)
  /-- Inside the name of a member. -/
  | name (state : TextState)
  /-- Behind the name of a member. -/
  | colon
  /-- Behind an opening bracket. -/
  | opened
  /-- Behind a value. -/
  | after
  /-- Behind a comma. -/
  | comma
  /-- Behind the document. -/
  | done (entries : List (Option Field))

structure Reader where
  place : Place
  /-- The open records, innermost first. -/
  levels : List OpenRecord

namespace Reader

def start (members : List (String × Shape)) : Reader :=
  { place := .document members, levels := [] }

/-- Behind the value of a member. -/
def deliver (v : Field) : List OpenRecord → Reader
  | [] => { place := .after, levels := [] }
  | f :: levels => { place := .after, levels := f.put v :: levels }

/-- Behind the closing bracket of the innermost record. -/
def close : List OpenRecord → Reader
  | [] => { place := .after, levels := [] }
  | [f] => { place := .done f.entries, levels := [] }
  | f :: outer => deliver (.record f.entries) outer

/-- The first octet of a value of the wrong type. -/
def mismatchNext (levels : List OpenRecord) (b : UInt8) : Except Fault Reader :=
  match Mismatch.ofFirst b with
  | .error e => .error e
  | .ok state => .ok { place := .mismatch state, levels }

/-- The first octet of a record, which opens it. -/
def recordNext (members : List (String × Shape)) (levels : List OpenRecord) (b : UInt8) :
    Except Fault Reader :=
  if b = 123 then .ok { place := .opened, levels := OpenRecord.opened .object members :: levels }
  else if b = 91 then .ok { place := .opened, levels := OpenRecord.opened .array members :: levels }
  else mismatchNext levels b

/-- The first octet of a member's value. -/
def valueNext (shape : Shape) (levels : List OpenRecord) (b : UInt8) : Except Fault Reader :=
  if b = 110 then .ok { place := .null [117, 108, 108], levels }
  else match shape with
    | .text =>
      if b = 34 then .ok { place := .text .start, levels } else mismatchNext levels b
    | .int32 =>
      match NumberForm.ofFirst? b with
      | some form => .ok { place := .number form [b], levels }
      | none => mismatchNext levels b
    | .record members => recordNext members levels b

/-- The next value of an array; one that is full has none. -/
def elementNext (f : OpenRecord) (outer : List OpenRecord) (b : UInt8) : Except Fault Reader :=
  match f.shape? with
  | some shape => valueNext shape (f :: outer) b
  | none => .error .malformed

/-- The opening quote of a member's name. -/
def nameNext (levels : List OpenRecord) (b : UInt8) : Except Fault Reader :=
  if b = 34 then .ok { place := .name .start, levels } else .error .malformed

def openedNext (levels : List OpenRecord) (b : UInt8) : Except Fault Reader :=
  if isBlank b then .ok { place := .opened, levels }
  else match levels with
    | [] => .error .malformed
    | f :: outer =>
      match f.form with
      | .object => if b = 125 then .ok (close levels) else nameNext levels b
      | .array => if b = 93 then .ok (close levels) else elementNext f outer b

def afterNext (levels : List OpenRecord) (b : UInt8) : Except Fault Reader :=
  if isBlank b then .ok { place := .after, levels }
  else match levels with
    | [] => .error .malformed
    | f :: _ =>
      match f.form with
      | .object =>
        if b = 125 then .ok (close levels)
        else if b = 44 then .ok { place := .comma, levels }
        else .error .malformed
      | .array =>
        if b = 93 then .ok (close levels)
        else if b = 44 ∧ f.full = false then .ok { place := .comma, levels }
        else .error .malformed

def commaNext (levels : List OpenRecord) (b : UInt8) : Except Fault Reader :=
  if isBlank b then .ok { place := .comma, levels }
  else match levels with
    | [] => .error .malformed
    | f :: outer =>
      match f.form with
      | .object => nameNext levels b
      | .array => elementNext f outer b

def nameClosed (name : String) : List OpenRecord → Except Fault Reader
  | [] => .error .malformed
  | f :: outer =>
    match f.select name with
    | some f => .ok { place := .colon, levels := f :: outer }
    | none => .error .mismatch

def colonNext (levels : List OpenRecord) (b : UInt8) : Except Fault Reader :=
  if isBlank b then .ok { place := .colon, levels }
  else if b = 58 then
    match levels.head?.bind OpenRecord.shape? with
    | some shape => .ok { place := .value shape, levels }
    | none => .ok { place := .skip .start, levels }
  else .error .malformed

/-- Read one octet. -/
def next (r : Reader) (b : UInt8) : Except Fault Reader :=
  match r.place with
  | .document members => if isBlank b then .ok r else recordNext members r.levels b
  | .value shape => if isBlank b then .ok r else valueNext shape r.levels b
  | .null [] => .error .malformed
  | .null (c :: owed) =>
    if b ≠ c then .error .malformed
    else if owed.isEmpty then .ok (deliver .null r.levels)
    else .ok { r with place := .null owed }
  | .number form seen =>
    match form.next b with
    | .error e => .error e
    | .ok (some form) => .ok { r with place := .number form (b :: seen) }
    | .ok none =>
      match int32Of seen.reverse with
      | .error e => .error e
      | .ok n => afterNext (deliver (.int32 n) r.levels).levels b
  | .text state =>
    match state.next b with
    | .error e => .error e
    | .ok (.more state) => .ok { r with place := .text state }
    | .ok (.closed text) => .ok (deliver (.text text) r.levels)
  | .mismatch state =>
    match state.next b with
    | .error e => .error e
    | .ok state => .ok { r with place := .mismatch state }
  | .skip state =>
    match state.next b with
    | .error e => .error e
    | .ok (.more state) => .ok { r with place := .skip state }
    | .ok .last => .ok { r with place := .after }
    | .ok .before => afterNext r.levels b
  | .name state =>
    match state.next b with
    | .error e => .error e
    | .ok (.more state) => .ok { r with place := .name state }
    | .ok (.closed name) => nameClosed name r.levels
  | .colon => colonNext r.levels b
  | .opened => openedNext r.levels b
  | .after => afterNext r.levels b
  | .comma => commaNext r.levels b
  | .done _ => if isBlank b then .ok r else .error .malformed

/-- Read octets until the first fault. -/
def run (r : Reader) : Bytes → Except Fault Reader
  | [] => .ok r
  | b :: rest =>
    match r.next b with
    | .error e => .error e
    | .ok r => run r rest

/-- The record, if the document may end here. -/
def finish (r : Reader) : Except Fault (List (Option Field)) :=
  match r.place with
  | .done entries => .ok entries
  | .number form seen =>
    if form.complete then
      match int32Of seen.reverse with
      | .error e => .error e
      | .ok _ => .error .truncated
    else .error .truncated
  | .mismatch state => .error state.atEnd
  | .skip state => .error state.atEnd
  | _ => .error .truncated

theorem run_append (r : Reader) (a b : Bytes) :
    r.run (a ++ b) = (r.run a).bind fun r => r.run b := by
  induction a generalizing r with
  | nil => rfl
  | cons x a ih =>
    rw [List.cons_append, run, run]
    cases r.next x with
    | error e => rfl
    | ok r => exact ih r

end Reader

/-- Read a document that holds one record. -/
def readRecord (members : List (String × Shape)) (bytes : Bytes) :
    Except Fault (List (Option Field)) :=
  (Reader.start members).run bytes |>.bind Reader.finish

end Json

end PresenceLink
