import PresenceLink.Transport

/-!
# A transport that follows a script

The results of opening, reading and writing are laid down beforehand and used
up in order. Where the script ends, opening succeeds, nothing is there to read
and writing succeeds.
-/

namespace PresenceLink

structure Script where
  opens : List (Except TransportError OpenStatus) := []
  inbound : List (Except TransportError Bytes) := []
  /-- The result of each write; nothing stands for success. -/
  writes : List (Option TransportError) := []
  up : Bool := false

namespace Script

def connect (s : Script) : Except TransportError OpenStatus × Script :=
  match s.opens with
  | [] => (.ok .connected, { s with up := true })
  | .ok .connected :: opens => (.ok .connected, { s with opens, up := true })
  | .ok .pending :: opens => (.ok .pending, { s with opens, up := false })
  | .error e :: opens => (.error e, { s with opens, up := false })

def read (s : Script) : Except TransportError (Option Bytes) × Script :=
  match s.inbound with
  | [] => (.ok none, s)
  | .ok payload :: inbound => (.ok (some payload), { s with inbound })
  | .error e :: inbound => (.error e, { s with inbound })

def write (s : Script) (_ : Bytes) : Except TransportError Unit × Script :=
  match s.writes with
  | [] => (.ok (), s)
  | none :: writes => (.ok (), { s with writes })
  | some e :: writes => (.error e, { s with writes })

instance : Transport Script where
  connect := connect
  close s := { s with up := false }
  isOpen s := s.up
  read := read
  write := write
  backlog s := s.inbound.length
  backlog_read s s' payload h := by
    unfold read at h
    split at h
    · simp at h
    · rename_i hi
      simp only [Prod.mk.injEq] at h
      obtain ⟨_, rfl⟩ := h
      simp [hi]
    · simp at h

/-- Lay down more results of opening. -/
def addOpens (s : Script) (opens : List (Except TransportError OpenStatus)) : Script :=
  { s with opens := s.opens ++ opens }

/-- Lay down more to read. -/
def addInbound (s : Script) (inbound : List (Except TransportError Bytes)) : Script :=
  { s with inbound := s.inbound ++ inbound }

/-- Lay down more results of writing. -/
def addWrites (s : Script) (writes : List (Option TransportError)) : Script :=
  { s with writes := s.writes ++ writes }

/-- Bring the link up or down behind the user's back. -/
def setUp (s : Script) (up : Bool) : Script := { s with up }

end Script

end PresenceLink
