import PresenceLink.Json.Value

/-!
# Rich presence

What a process shows of itself. Unset fields and groups without a set field
are left out when it is written.
-/

namespace PresenceLink

structure Timestamps where
  start : Option Int64 := none
  stop : Option Int64 := none
  deriving DecidableEq

structure Assets where
  largeImage : Option String := none
  largeText : Option String := none
  smallImage : Option String := none
  smallText : Option String := none
  deriving DecidableEq

/-- A group of players: its current and its largest size, if known. -/
structure Party where
  id : String
  size : Option (UInt32 × UInt32) := none
  deriving DecidableEq

structure Secrets where
  matchKey : Option String := none
  join : Option String := none
  spectate : Option String := none
  deriving DecidableEq

structure Presence where
  state : Option String := none
  details : Option String := none
  timestamps : Timestamps := {}
  assets : Assets := {}
  party : Option Party := none
  secrets : Secrets := {}
  running : Bool := false
  deriving DecidableEq

namespace Presence

def withState (p : Presence) (s : String) : Presence := { p with state := some s }

def withDetails (p : Presence) (s : String) : Presence := { p with details := some s }

def withStart (p : Presence) (t : Int64) : Presence :=
  { p with timestamps := { p.timestamps with start := some t } }

def withEnd (p : Presence) (t : Int64) : Presence :=
  { p with timestamps := { p.timestamps with stop := some t } }

def withLargeImage (p : Presence) (key : String) (text : Option String) : Presence :=
  { p with assets := { p.assets with largeImage := some key, largeText := text } }

def withSmallImage (p : Presence) (key : String) (text : Option String) : Presence :=
  { p with assets := { p.assets with smallImage := some key, smallText := text } }

/-- Join a party; its size is only known if it can hold anyone. -/
def withParty (p : Presence) (id : String) (size most : UInt32) : Presence :=
  { p with party := some { id, size := if 0 < most then some (size, most) else none } }

def withMatchSecret (p : Presence) (s : String) : Presence :=
  { p with secrets := { p.secrets with matchKey := some s } }

def withJoinSecret (p : Presence) (s : String) : Presence :=
  { p with secrets := { p.secrets with join := some s } }

def withSpectateSecret (p : Presence) (s : String) : Presence :=
  { p with secrets := { p.secrets with spectate := some s } }

def withInstance (p : Presence) (running : Bool) : Presence := { p with running }

end Presence

namespace Json

/-- A member that is only there if it has a value. -/
def optional (name : String) (v : Option Value) : List (String × Value) :=
  match v with
  | some v => [(name, v)]
  | none => []

def optionalText (name : String) (s : Option String) : List (String × Value) :=
  optional name (s.map .text)

/-- A group of members that is left out when it is empty. -/
def group (name : String) (members : List (String × Value)) : List (String × Value) :=
  if members.isEmpty then [] else [(name, .object members)]

end Json

open Json

def Timestamps.members (t : Timestamps) : List (String × Value) :=
  optional "start" (t.start.map fun n => .number n.toInt) ++
    optional "end" (t.stop.map fun n => .number n.toInt)

def Assets.members (a : Assets) : List (String × Value) :=
  optionalText "large_image" a.largeImage ++ optionalText "large_text" a.largeText ++
    optionalText "small_image" a.smallImage ++ optionalText "small_text" a.smallText

def Party.members (p : Party) : List (String × Value) :=
  ("id", .text p.id) ::
    optional "size" (p.size.map fun s => .array [.number s.1.toNat, .number s.2.toNat])

def Secrets.members (s : Secrets) : List (String × Value) :=
  optionalText "match" s.matchKey ++ optionalText "join" s.join ++
    optionalText "spectate" s.spectate

def Presence.members (p : Presence) : List (String × Value) :=
  optionalText "state" p.state ++ optionalText "details" p.details ++
    group "timestamps" p.timestamps.members ++ group "assets" p.assets.members ++
    optional "party" (p.party.map fun q => .object q.members) ++
    group "secrets" p.secrets.members ++ [("instance", .bool p.running)]

def Presence.toJson (p : Presence) : Value := .object p.members

end PresenceLink
