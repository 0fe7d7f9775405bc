import PresenceLink.Json.Token

/-!
# Skipping a value

A value that nobody asks for must be well formed, but may be nested to any
depth; the octets of its texts, the pairing of its surrogates and the size of
its numbers are not looked at.
-/

namespace PresenceLink

namespace Json

inductive Bracket where
  | array
  | object
  deriving DecidableEq, Repr

/-- Where a skipped text stands. -/
inductive SkippedText where
  | plain
  | escape
  | unit (digits : Bytes)
  deriving DecidableEq, Repr

inductive SkippedTextStep where
  | more (state : SkippedText)
  | closed
  deriving DecidableEq, Repr

def SkippedText.next (s : SkippedText) (b : UInt8) : Except Fault SkippedTextStep :=
  match s with
  | plain =>
    if b = 34 then .ok .closed
    else if b = 92 then .ok (.more escape)
    else if b < 32 then .error .malformed
    else .ok (.more plain)
  | escape =>
    if b = 117 then .ok (.more (unit []))
    else if (shortEscape? b).isSome then .ok (.more plain)
    else .error .malformed
  | unit digits =>
    if digits.length < 3 then .ok (.more (unit (b :: digits)))
    else if (codeUnit? (b :: digits)).isSome then .ok (.more plain)
    else .error .malformed

/-- Where the skipping stands inside the innermost open bracket. -/
inductive SkipPlace where
  /-- Before a value. -/
  | value
  /-- Inside a word. -/
  | word (owed : Bytes)
  | number (form : NumberForm)
  | text (state : SkippedText)
  /-- Behind an opening bracket. -/
  | opened
  /-- Behind a value. -/
  | after
  /-- Before the name of a member. -/
  | name
  /-- Inside the name of a member. -/
  | nameText (state : SkippedText)
  /-- Behind the name of a member. -/
  | colon
  deriving DecidableEq, Repr

structure Skip where
  place : SkipPlace
  /-- The open brackets, innermost first. -/
  enclosing : List Bracket
  deriving DecidableEq, Repr

/-- The value goes on, ends with this octet, or has ended before it. -/
inductive SkipStep where
  | more (state : Skip)
  | last
  | before
  deriving DecidableEq, Repr

namespace Skip

def start : Skip := { place := .value, enclosing := [] }

/-- Behind a value that the brackets enclose. -/
def ended : List Bracket → SkipStep
  | [] => .last
  | enclosing => .more { place := .after, enclosing }

/-- The first octet of a value. -/
def valueNext (enclosing : List Bracket) (b : UInt8) : Except Fault SkipStep :=
  match owedWord? b, NumberForm.ofFirst? b with
  | some owed, _ => .ok (.more { place := .word owed, enclosing })
  | none, some form => .ok (.more { place := .number form, enclosing })
  | none, none =>
    if b = 34 then .ok (.more { place := .text .plain, enclosing })
    else if b = 91 then .ok (.more { place := .opened, enclosing := .array :: enclosing })
    else if b = 123 then .ok (.more { place := .opened, enclosing := .object :: enclosing })
    else .error .malformed

/-- The opening quote of a member's name. -/
def nameNext (enclosing : List Bracket) (b : UInt8) : Except Fault SkipStep :=
  if b = 34 then .ok (.more { place := .nameText .plain, enclosing }) else .error .malformed

/-- A comma or the closing bracket behind a value. -/
def afterNext (enclosing : List Bracket) (b : UInt8) : Except Fault SkipStep :=
  match enclosing with
  | [] => .ok .before
  | .array :: outer =>
    if isBlank b then .ok (.more { place := .after, enclosing })
    else if b = 44 then .ok (.more { place := .value, enclosing })
    else if b = 93 then .ok (ended outer)
    else .error .malformed
  | .object :: outer =>
    if isBlank b then .ok (.more { place := .after, enclosing })
    else if b = 44 then .ok (.more { place := .name, enclosing })
    else if b = 125 then .ok (ended outer)
    else .error .malformed

/-- The first item or member, or the closing bracket at once. -/
def openedNext (enclosing : List Bracket) (b : UInt8) : Except Fault SkipStep :=
  match enclosing with
  | [] => .error .malformed
  | .array :: outer =>
    if isBlank b then .ok (.more { place := .opened, enclosing })
    else if b = 93 then .ok (ended outer)
    else valueNext enclosing b
  | .object :: outer =>
    if isBlank b then .ok (.more { place := .opened, enclosing })
    else if b = 125 then .ok (ended outer)
    else nameNext enclosing b

/-- Read one octet of a skipped value. -/
def next (s : Skip) (b : UInt8) : Except Fault SkipStep :=
  match s.place with
  | .value => if isBlank b then .ok (.more s) else valueNext s.enclosing b
  | .word [] => .error .malformed
  | .word (c :: owed) =>
    if b ≠ c then .error .malformed
    else if owed.isEmpty then .ok (ended s.enclosing)
    else .ok (.more { s with place := .word owed })
  | .number form =>
    match form.next b with
    | .error e => .error e
    | .ok (some form) => .ok (.more { s with place := .number form })
    | .ok none => afterNext s.enclosing b
  | .text state =>
    match state.next b with
    | .error e => .error e
    | .ok (.more state) => .ok (.more { s with place := .text state })
    | .ok .closed => .ok (ended s.enclosing)
  | .opened => openedNext s.enclosing b
  | .after => afterNext s.enclosing b
  | .name => if isBlank b then .ok (.more s) else nameNext s.enclosing b
  | .nameText state =>
    match state.next b with
    | .error e => .error e
    | .ok (.more state) => .ok (.more { s with place := .nameText state })
    | .ok .closed => .ok (.more { s with place := .colon })
  | .colon =>
    if isBlank b then .ok (.more s)
    else if b = 58 then .ok (.more { s with place := .value })
    else .error .malformed

/-- The fault of a document that ends here: an unfinished number is malformed,
all else is merely cut off. -/
def atEnd (s : Skip) : Fault :=
  match s.place with
  | .number form => if form.complete then .truncated else .malformed
  | _ => .truncated

end Skip

end Json

end PresenceLink
