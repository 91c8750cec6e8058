import ReadThrough.Bytes
import ReadThrough.Table

namespace ReadThrough.Fragment

inductive Gathered where
  | count (n : Int64)
  | sets (slots : List (Option (List Bytes)))
  deriving DecidableEq, Repr

namespace Gathered

def emptySets (slots : Nat) : Gathered :=
  .sets (List.replicate slots none)

def count? : Gathered → Option Int64
  | .count n => some n
  | .sets _ => none

def toSets : Gathered → List (List Bytes)
  | .count _ => []
  | .sets slots => slots.map fun slot => slot.getD []

end Gathered

inductive Part where
  | count (n : Int64)
  | set (slot : Nat) (members : List Bytes)
  | failed
  deriving DecidableEq, Repr

structure Group (κ : Type) where
  client : Nat
  total : Nat
  done : Nat := 0
  failures : Nat := 0
  gathered : Gathered
  context : κ
  deriving DecidableEq, Repr

namespace Group

variable {κ : Type}

def accept? (group : Group κ) (part : Part) : Option (Group κ) :=
  match group.gathered, part with
  | .count n, .count m =>
      some { group with gathered := .count (n + m), done := group.done + 1 }
  | .sets slots, .set slot members =>
      if slots[slot]? = some none then
        some { group with gathered := .sets (slots.set slot (some members)), done := group.done + 1 }
      else none
  | _, .failed => some { group with failures := group.failures + 1, done := group.done + 1 }
  | _, _ => none

theorem done_of_accept? {group grown : Group κ} {part : Part}
    (h : group.accept? part = some grown) : grown.done = group.done + 1 := by
  unfold accept? at h
  split at h
  · cases h; rfl
  · split at h
    · cases h; rfl
    · simp at h
  · cases h; rfl
  · simp at h

def isComplete (group : Group κ) : Bool :=
  group.total ≤ group.done

end Group

structure Groups (κ : Type) where
  table : Table Nat (Group κ) := Table.empty
  next : Nat := 1

namespace Groups

variable {κ : Type}

def size (groups : Groups κ) : Nat :=
  groups.table.size

def openGroup (groups : Groups κ) (client total : Nat) (gathered : Gathered) (context : κ) :
    Nat × Groups κ :=
  (groups.next,
    { table := groups.table.insert groups.next { client, total, gathered, context }
      next := groups.next + 1 })

def poll (groups : Groups κ) (id : Nat) : Option (Group κ) × Groups κ :=
  match groups.table.get? id with
  | none => (none, groups)
  | some group =>
      if group.isComplete then (some group, { groups with table := groups.table.erase id })
      else (none, groups)

def contribute (groups : Groups κ) (id : Nat) (part : Part) : Option (Group κ) × Groups κ :=
  match (groups.table.get? id).bind (·.accept? part) with
  | none => (none, groups)
  | some group => { groups with table := groups.table.insert id group }.poll id

def accepts (groups : Groups κ) (id : Nat) (part : Part) : Bool :=
  ((groups.table.get? id).bind (·.accept? part)).isSome

def abandon (groups : Groups κ) (client : Nat) : Groups κ :=
  { groups with table := groups.table.filter fun _ group => group.client ≠ client }

end Groups

end ReadThrough.Fragment
