import ReadThrough.Pool.Server
import ReadThrough.Reply
import ReadThrough.Store.Request

namespace ReadThrough.Proxy

inductive Target where
  | client (slot : Nat)
  | fragment (group slot : Nat)
  deriving DecidableEq, Repr

inductive SetRead where
  | query (query : SetQuery)
  | slot
  deriving DecidableEq, Repr

inductive Read where
  | value (address : Address)
  | set (address : Address) (read : SetRead)
  deriving DecidableEq, Repr

def Read.address : Read → Address
  | .value address | .set address _ => address

inductive Write where
  | put (address : Address) (value : Bytes)
  | setUpdate (address : Address) (count : Nat)
  | counter (address : Address)
  | delete (address : Address)
  | store (dest : Address) (members : List Bytes)
  deriving DecidableEq, Repr

def Write.address : Write → Address
  | .put address _ | .setUpdate address _ | .counter address | .delete address
  | .store address _ => address

inductive Stage where
  | cacheRead (read : Read)
  | storeRead (read : Read)
  | awaitingVclock (address : Address) (value : Bytes) (deferred : Store.Request)
  | storeFetch (dest : Address) (members : List Bytes)
  | storeWrite (write : Write)
  deriving DecidableEq, Repr

namespace Stage

def name : Stage → String
  | .cacheRead _ => "cache-read"
  | .storeRead _ => "backend-read"
  | .awaitingVclock .. => "awaiting-vclock"
  | .storeFetch .. => "store-fetch"
  | .storeWrite _ => "backend-write"

def address : Stage → Address
  | .cacheRead read | .storeRead read => read.address
  | .awaitingVclock address _ _ | .storeFetch address _ => address
  | .storeWrite write => write.address

end Stage

structure Operation where
  client : Nat
  target : Target
  stage : Stage
  request : Option Store.Request := none
  primary : Option Nat := none
  resend : Pool.Resend := {}
  deriving DecidableEq, Repr

namespace Operation

def kind? (operation : Operation) : Option Store.RequestKind :=
  operation.request.map (·.kind)

def isResendable (operation : Operation) : Bool :=
  operation.kind?.any (·.isIdempotentRead) &&
    match operation.target, operation.stage with
    | .client _, .storeRead _ => true
    | _, _ => false

end Operation

inductive GroupContext where
  | del (slot : Nat)
  | algebra (slot : Nat) (op : SetOperator) (dest : Option Address)
  deriving DecidableEq, Repr

end ReadThrough.Proxy
