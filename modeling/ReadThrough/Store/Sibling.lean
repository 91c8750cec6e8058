import ReadThrough.Bytes

namespace ReadThrough.Store

structure Sibling where
  value : Bytes
  contentType : Option Bytes := none
  lastModified : Option (UInt32 × UInt32) := none
  deleted : Bool := false
  deriving DecidableEq, Repr

namespace Sibling

def micros? (sibling : Sibling) : Option Nat :=
  sibling.lastModified.map fun (secs, usecs) => secs.toNat * 1000000 + usecs.toNat

def live (siblings : List Sibling) : List Sibling :=
  siblings.filter fun s => !s.deleted

def newest? (siblings : List Sibling) : Option Nat :=
  (siblings.filterMap micros?).max?

/-- Whether a sibling may be picked: it is live, and the newest of those, unless there is nothing to
compare or the first of them bears no time. -/
def mayWin (siblings : List Sibling) (sibling : Sibling) : Bool :=
  !sibling.deleted &&
    match live siblings with
    | first :: second :: others =>
        first.lastModified.isNone || sibling.micros? == newest? (first :: second :: others)
    | _ => true

def candidates (siblings : List Sibling) : List Sibling :=
  siblings.filter (mayWin siblings)

/-- One of the candidates; `draw` decides among several. -/
def pick (draw : Nat) (siblings : List Sibling) : Option Sibling :=
  let candidates := candidates siblings
  candidates[draw % candidates.length]?

end Sibling

end ReadThrough.Store
