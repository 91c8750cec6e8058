import ReadThrough.Buffer
import ReadThrough.Cache.Copy
import ReadThrough.Command
import ReadThrough.Fragment
import ReadThrough.Policy
import ReadThrough.Proxy.Operation
import ReadThrough.Recency
import ReadThrough.ReplyQueue
import ReadThrough.Resp.Parse
import ReadThrough.Store.Compose
import ReadThrough.Store.Response

namespace ReadThrough

open Proxy (Operation GroupContext)

inductive CacheEntry where
  | operation (id : Nat)
  | sideEffect
  deriving DecidableEq, Repr

inductive Action where
  | reply (client slot : Nat) (value : Reply)
  | cache (server : Nat) (entry : CacheEntry) (command : Cache.Command)
  | store (server operation : Nat) (request : Store.Request)
  | closeCache (server : Nat)
  | closeStore (server : Nat)

def Action.bytes : Action → Bytes
  | .reply _ _ value => value.encode
  | .cache _ _ command => command.encode
  | .store _ _ request => request.encode
  | .closeCache _ | .closeStore _ => []

/-- What the proxy finds when it looks outside for the `n`-th time: the pool may have changed since
the last look, and a draw decides among siblings of equal right. -/
structure World where
  pool : Nat → Pool.View
  draw : Nat → Nat

/-- Promises of the proxy to itself, noted when one turns out to be broken. -/
inductive Breach where
  | absentClient (client : Nat)
  | slotNotFree (client slot : Nat)
  | replyToFragment (group : Nat)
  | partRefused (group : Nat)
  | requestMissing
  | stageMismatch (stage : String)
  | unexpectedResponse (stage : String)
  deriving DecidableEq, Repr

structure ClientLink where
  inbound : Buffer := {}
  replies : ReplyQueue Reply := {}

structure CacheLink where
  inbound : Buffer := {}
  pending : List CacheEntry := []

structure StoreLink where
  inbound : Buffer := {}
  pending : List (Nat × Store.RequestKind) := []

structure Proxy where
  settings : Settings
  policy : PolicyReader
  vclocks : Recency Bytes Bytes
  operations : Table Nat Operation := Table.empty
  nextOperation : Nat := 1
  clients : Table Nat ClientLink := Table.empty
  caches : Table Nat CacheLink := Table.empty
  stores : Table Nat StoreLink := Table.empty
  groups : Fragment.Groups GroupContext := {}
  outbox : List Action := []
  looks : Nat := 0
  breaches : List Breach := []

namespace Proxy

def start (settings : Settings) (policy : BucketPolicy) : Proxy where
  settings := settings
  policy := { current := policy }
  vclocks := { capacity := settings.vclockCapacity }

def drain (p : Proxy) : List Action × Proxy :=
  (p.outbox, { p with outbox := [] })

def emit (p : Proxy) (action : Action) : Proxy :=
  { p with outbox := p.outbox ++ [action] }

def breach (p : Proxy) (what : Breach) : Proxy :=
  { p with breaches := p.breaches ++ [what] }

def look (w : World) (p : Proxy) : Pool.View × Proxy :=
  (w.pool p.looks, { p with looks := p.looks + 1 })

def toss (w : World) (p : Proxy) : Nat × Proxy :=
  (w.draw p.looks, { p with looks := p.looks + 1 })

def pick (w : World) (p : Proxy) (tier : Pool.Tier) (key : Bytes) : Option Nat × Proxy :=
  let (pool, p) := p.look w
  (pool.pick tier key, p)

def client (p : Proxy) (client : Nat) : ClientLink :=
  (p.clients.get? client).getD {}

def cacheLink (p : Proxy) (server : Nat) : CacheLink :=
  (p.caches.get? server).getD {}

def storeLink (p : Proxy) (server : Nat) : StoreLink :=
  (p.stores.get? server).getD {}

def setClient (p : Proxy) (client : Nat) (link : ClientLink) : Proxy :=
  { p with clients := p.clients.insert client link }

def setCache (p : Proxy) (server : Nat) (link : CacheLink) : Proxy :=
  { p with caches := p.caches.insert server link }

def setStore (p : Proxy) (server : Nat) (link : StoreLink) : Proxy :=
  { p with stores := p.stores.insert server link }

def newOperation (p : Proxy) : Nat × Proxy :=
  (p.nextOperation, { p with nextOperation := p.nextOperation + 1 })

def addOperation (p : Proxy) (id : Nat) (operation : Operation) : Proxy :=
  { p with operations := p.operations.insert id operation }

def takeOperation (p : Proxy) (id : Nat) : Option (Operation × Proxy) :=
  (p.operations.get? id).map fun operation =>
    (operation, { p with operations := p.operations.erase id })

def reserve (p : Proxy) (client : Nat) : Nat × Proxy :=
  let link := p.client client
  let (slot, replies) := link.replies.reserve
  (slot, p.setClient client { link with replies })

def pendingOperations (p : Proxy) : Nat :=
  p.operations.size

def openGroups (p : Proxy) : Nat :=
  p.groups.size

def outstandingReplies (p : Proxy) (client : Nat) : Nat :=
  (p.client client).replies.outstanding

def inFlight (p : Proxy) (server : Nat) : Nat :=
  (p.storeLink server).pending.length

def rememberedVclock (p : Proxy) (key : Bytes) : Option Bytes :=
  p.vclocks.peek? key

def rememberVclock (p : Proxy) (address : Address) : Option Bytes → Proxy
  | none | some [] => p
  | some vclock => { p with vclocks := p.vclocks.remember address.key.join vclock }

def ttl (p : Proxy) (address : Address) : Option Nat :=
  p.policy.current.resolve address.key p.settings.serverTtl

def ask (p : Proxy) (server : Nat) (entry : CacheEntry) (command : Cache.Command) : Proxy :=
  let link := p.cacheLink server
  (p.setCache server { link with pending := link.pending ++ [entry] }).emit
    (.cache server entry command)

def sideEffect (w : World) (p : Proxy) (route : Bytes) (command : Cache.Command) : Proxy :=
  match p.pick w .cache route with
  | (none, p) => p
  | (some server, p) => p.ask server .sideEffect command

def sideEffects (w : World) (p : Proxy) (route : Bytes) (commands : List Cache.Command) : Proxy :=
  commands.foldl (fun p command => p.sideEffect w route command) p

end Proxy

end ReadThrough
