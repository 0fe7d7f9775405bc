/-!
# Places in the file system

A name is a way through directories, from the root or from the working
directory: an empty part or a dot stays, two dots go up, any other part goes
down. The place it leads to is what remains when each step up has undone a step
down.
-/

namespace PresenceLink

/-- A place, seen from the root or from the working directory. -/
structure Place where
  rooted : Bool
  /-- Steps up from the working directory. -/
  up : Nat := 0
  /-- Steps down from there, latest first. -/
  down : List String := []
  deriving DecidableEq, Repr

namespace Place

/-- Where a name starts. -/
def start (name : String) : Place := { rooted := name.startsWith "/" }

def parts (name : String) : List String := name.splitOn "/"

/-- One step up; there is nothing above the root. -/
def parent (p : Place) : Place :=
  match p.down with
  | _ :: down => { p with down }
  | [] => if p.rooted then p else { p with up := p.up + 1 }

def stays (part : String) : Bool := part = "" || part = "."

/-- One step along a name. -/
def enter (p : Place) (part : String) : Place :=
  if stays part then p
  else if part = ".." then p.parent
  else { p with down := part :: p.down }

/-- The place after each step. -/
def trail (p : Place) : List String → List Place
  | [] => []
  | part :: rest => p.enter part :: (p.enter part).trail rest

/-- The place that a name leads to. -/
def ofName (name : String) : Place := (parts name).foldl enter (start name)

/-- The places that a name leads through. -/
def passed (name : String) : List Place := ((start name).trail (parts name)).dropLast

end Place

end PresenceLink
