import ReadThrough.Failure
import ReadThrough.Members
import ReadThrough.Resp.Value

namespace ReadThrough

abbrev Reply := Resp.Value

namespace Reply

def ok : Reply := Resp.Value.simple (ascii "OK")

def nil : Reply := Resp.Value.nilBulk

def integer (n : Int64) : Reply := Resp.Value.integer n

def count (n : Nat) : Reply := Resp.Value.integer (Int64.ofNat n)

def bulk (data : Bytes) : Reply := Resp.Value.bulk data

def members (items : List Bytes) : Reply := Resp.Value.array (items.map Resp.Value.bulk)

def oneLine (text : String) : String :=
  String.ofList (text.toList.map fun c => if c = '\r' ∨ c = '\n' then ' ' else c)

def error (message : String) : Reply :=
  Resp.Value.error (ascii "ERR " ++ Text.utf8 (oneLine message))

def failure (why : Failure) : Reply :=
  error why.message

end Reply

inductive SetQuery where
  | members
  | contains (member : Bytes)
  | card
  deriving DecidableEq, Repr

def SetQuery.answer (members : List Bytes) : SetQuery → Reply
  | .members => Reply.members members
  | .contains member => Reply.integer (if members.contains member then 1 else 0)
  | .card => Reply.count members.length

end ReadThrough
