import ReadThrough.Key
import ReadThrough.Table

namespace ReadThrough

inductive Ttl where
  | never
  | millis (n : Nat)
  deriving DecidableEq, Repr

structure BucketPolicy where
  entries : Table (Bytes × Bytes) Ttl := Table.empty
  deriving DecidableEq

namespace BucketPolicy

def setTtl (policy : BucketPolicy) (ns bucket : Bytes) (ttl : Ttl) : BucketPolicy :=
  { entries := policy.entries.insert (ns, bucket) ttl }

def ttl? (policy : BucketPolicy) (ns bucket : Bytes) : Option Ttl :=
  policy.entries.get? (ns, bucket)

@[simp] theorem ttl?_setTtl (policy : BucketPolicy) (ns bucket : Bytes) (ttl : Ttl) :
    (policy.setTtl ns bucket ttl).ttl? ns bucket = some ttl := by
  simp [setTtl, ttl?]

def resolve (policy : BucketPolicy) (key : Key) (serverTtl : Nat) : Option Nat :=
  match policy.ttl? key.namespaceOrDefault key.bucket with
  | some .never => none
  | some (.millis n) => some n
  | none => if serverTtl = 0 then none else some serverTtl

def size (policy : BucketPolicy) : Nat :=
  policy.entries.size

end BucketPolicy

structure PolicyReader where
  current : BucketPolicy := {}
  unread : List BucketPolicy := []
  deriving DecidableEq

namespace PolicyReader

def deliver (reader : PolicyReader) (policy : BucketPolicy) : PolicyReader :=
  { reader with unread := reader.unread ++ [policy] }

def isStale (reader : PolicyReader) : Bool :=
  !reader.unread.isEmpty

def refresh (reader : PolicyReader) : PolicyReader :=
  { current := reader.unread.getLast?.getD reader.current, unread := [] }

theorem refresh_deliver (reader : PolicyReader) (policy : BucketPolicy) :
    (reader.deliver policy).refresh = { current := policy } := by
  simp [deliver, refresh]

def readAll (current : BucketPolicy) (changed : Bool) : List BucketPolicy → Bool × PolicyReader
  | [] => (changed, { current })
  | policy :: rest => readAll policy true rest

def look (reader : PolicyReader) : Bool × PolicyReader :=
  readAll reader.current false reader.unread

theorem readAll_eq (current : BucketPolicy) (changed : Bool) (unread : List BucketPolicy) :
    readAll current changed unread =
      (changed || !unread.isEmpty, { current := unread.getLast?.getD current }) := by
  induction unread generalizing current changed with
  | nil => simp [readAll]
  | cons policy rest ih => simp [readAll, ih, List.getLast?_cons]

theorem look_eq (reader : PolicyReader) : reader.look = (reader.isStale, reader.refresh) := by
  simp [look, readAll_eq, isStale, refresh]

end PolicyReader

/-- The newest table, and the readers that are told of new ones. A reader that is gone stays among
the subscribers until it cannot be told of the next table. -/
structure PolicyBoard where
  newest : BucketPolicy := {}
  subscribers : List Nat := []
  readers : Table Nat PolicyReader := Table.empty
  nextReader : Nat := 0
  deriving DecidableEq

namespace PolicyBoard

def handOut (policy : BucketPolicy) :
    List Nat → Table Nat PolicyReader → List Nat × Table Nat PolicyReader
  | [], readers => ([], readers)
  | subscriber :: rest, readers =>
      match readers.get? subscriber with
      | none => handOut policy rest readers
      | some reader =>
          let (kept, readers) :=
            handOut policy rest (readers.insert subscriber (reader.deliver policy))
          (subscriber :: kept, readers)

def publish (board : PolicyBoard) (policy : BucketPolicy) : PolicyBoard :=
  let (subscribers, readers) := handOut policy board.subscribers board.readers
  { board with newest := policy, subscribers, readers }

def subscribe (board : PolicyBoard) : Nat × PolicyBoard :=
  (board.nextReader,
    { board with
      subscribers := board.subscribers ++ [board.nextReader]
      readers := board.readers.insert board.nextReader { current := board.newest }
      nextReader := board.nextReader + 1 })

def drop (board : PolicyBoard) (reader : Nat) : PolicyBoard :=
  { board with readers := board.readers.erase reader }

def reader? (board : PolicyBoard) (reader : Nat) : Option PolicyReader :=
  board.readers.get? reader

def refresh (board : PolicyBoard) (reader : Nat) : Bool × PolicyBoard :=
  match board.reader? reader with
  | none => (false, board)
  | some r =>
      let (changed, r) := r.look
      (changed, { board with readers := board.readers.insert reader r })

end PolicyBoard

end ReadThrough
