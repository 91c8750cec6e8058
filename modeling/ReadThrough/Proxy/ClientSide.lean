import ReadThrough.Proxy.StoreSide

namespace ReadThrough.Proxy

/-- A handler may refuse its command at any step; what it has done up to there stays done. -/
abbrev Handler := EStateM Failure Proxy

def sendNew (w : World) (p : Proxy) (operation : Operation) (request : Store.Request)
    (route : Bytes) : Proxy :=
  let (id, p) := p.newOperation
  p.send w id operation request route

def lookUpVclock (p : Proxy) (key : Bytes) : Option Bytes × Proxy :=
  (p.rememberedVclock key, { p with vclocks := p.vclocks.touch key })

def startSet (w : World) (client slot : Nat) (key value : Bytes) : Handler Unit := do
  let address ← ofExcept (Address.parse key)
  let known ← modifyGet fun p => p.lookUpVclock address.key.join
  let id ← modifyGet newOperation
  let settings := (← get).settings
  match known with
  | some vclock =>
      let request ← ofExcept (Store.Request.put settings address.key value (some vclock))
      let operation : Operation :=
        { client, target := .client slot, stage := .storeWrite (.put address value) }
      modify fun p => p.send w id operation request address.raw
  | none =>
      let deferred ← ofExcept (Store.Request.put settings address.key value none)
      let fetch ← ofExcept (Store.Request.get settings address.key)
      let operation : Operation :=
        { client, target := .client slot, stage := .awaitingVclock address value deferred }
      modify fun p => p.send w id operation fetch address.raw

def openGroup (p : Proxy) (client total : Nat) (gathered : Fragment.Gathered)
    (context : GroupContext) : Nat × Proxy :=
  let (group, groups) := p.groups.openGroup client total gathered context
  (group, { p with groups })

def pollGroup (w : World) (p : Proxy) (group : Nat) : Proxy :=
  match p.groups.poll group with
  | (none, groups) => { p with groups }
  | (some done, groups) => completeGroup w { p with groups } done

def sendDeletion (w : World) (settings : Settings) (client group : Nat) (p : Proxy)
    (part : Address × Nat) : Proxy :=
  match Store.Request.delete settings part.1.key with
  | .ok request =>
      let operation : Operation :=
        { client, target := .fragment group part.2, stage := .storeWrite (.delete part.1) }
      p.sendNew w operation request part.1.raw
  | .error _ => p.contribute w group .failed

def delete (w : World) (p : Proxy) (client slot : Nat) (deletion : Store.Deletion) : Proxy :=
  let settings := p.settings
  let p := deletion.cacheOnly.foldl (fun p address => p.invalidate w address) p
  let (group, p) :=
    p.openGroup client deletion.stored.length
      (.count (Int64.ofNat deletion.cacheOnly.length)) (.del slot)
  let p := deletion.stored.zipIdx.foldl (sendDeletion w settings client group) p
  p.pollGroup w group

def startDelete (w : World) (client slot : Nat) (keys : List Bytes) : Handler Unit := do
  let deletion ← ofExcept (Store.Deletion.ofKeys keys)
  modify fun p => p.delete w client slot deletion

def startSetUpdate (w : World) (client slot : Nat) (key : Bytes) (action : Store.SetAction)
    (members : List Bytes) : Handler Unit := do
  let address ← ofExcept (Address.parse key)
  let request ← ofExcept (Store.Request.setUpdate (← get).settings address.key action members)
  let operation : Operation :=
    { client, target := .client slot, stage := .storeWrite (.setUpdate address members.length) }
  modify fun p => p.sendNew w operation request address.raw

def startSetQuery (w : World) (client slot : Nat) (key : Bytes) (query : SetQuery) :
    Handler Unit := do
  let address ← ofExcept (Address.parse key)
  modify fun p => p.startRead w client (.client slot) (.set address (.query query))

def planDest : Option Bytes → Except Failure (Option Address)
  | none => .ok none
  | some raw => do
      let address ← Address.parse raw
      let _ ← address.key.requireBucket
      return some address

def combine (w : World) (p : Proxy) (client slot : Nat) (op : SetOperator)
    (dest : Option Address) (sources : List Address) : Proxy :=
  let (group, p) :=
    p.openGroup client sources.length (Fragment.Gathered.emptySets sources.length)
      (.algebra slot op dest)
  sources.zipIdx.foldl
    (fun p source => p.startRead w client (.fragment group source.2) (.set source.1 .slot)) p

def startCombination (w : World) (client slot : Nat) (op : SetOperator) (dest : Option Bytes)
    (keys : List Bytes) : Handler Unit := do
  let sources ← ofExcept (keys.mapM Address.parse)
  let dest ← ofExcept (planDest dest)
  modify fun p => p.combine w client slot op dest sources

def startCommand (w : World) (client slot : Nat) : Command → Handler Unit
  | .get key => do
      let address ← ofExcept (Address.parse key)
      modify fun p => p.startRead w client (.client slot) (.value address)
  | .set key value => startSet w client slot key value
  | .del keys => startDelete w client slot keys
  | .sadd key members => startSetUpdate w client slot key .add members
  | .srem key members => startSetUpdate w client slot key .remove members
  | .smembers key => startSetQuery w client slot key .members
  | .sismember key member => startSetQuery w client slot key (.contains member)
  | .scard key => startSetQuery w client slot key .card
  | .algebra op dest keys => startCombination w client slot op dest keys
  | .incr key amount => do
      let address ← ofExcept (Address.parse key)
      let request ← ofExcept (Store.Request.counterUpdate (← get).settings address.key amount)
      let operation : Operation :=
        { client, target := .client slot, stage := .storeWrite (.counter address) }
      modify fun p => p.sendNew w operation request address.raw

def reject (p : Proxy) (client : Nat) (why : Failure) : Proxy :=
  let (slot, p) := p.reserve client
  p.reply client slot (Reply.failure why)

def clientCommand (w : World) (p : Proxy) (client : Nat) (command : Command) : Proxy :=
  let (slot, p) := { p with policy := p.policy.refresh }.reserve client
  match (startCommand w client slot command).run p with
  | .ok _ p => p
  | .error why p => p.reply client slot (Reply.failure why)

def clientValue (w : World) (p : Proxy) (client : Nat) (value : Resp.Value) : Proxy :=
  match Command.ofValue value with
  | .ok command => p.clientCommand w client command
  | .error why => p.reject client why

def clientData (w : World) (p : Proxy) (client : Nat) (data : Bytes) : Proxy :=
  let link := p.client client
  let (values, ending) := Resp.reader.stream (link.inbound.append data).bytes
  let p := values.foldl (fun p value => p.clientValue w client value)
    (p.setClient client { link with inbound := {} })
  match ending with
  | .waiting rest => p.setClient client { p.client client with inbound := ⟨rest⟩ }
  | .refused why => p.reject client why

def clientClosed (p : Proxy) (client : Nat) : Proxy :=
  { p with
    clients := p.clients.erase client
    operations := p.operations.filter fun _ operation => operation.client ≠ client
    groups := p.groups.abandon client }

end ReadThrough.Proxy
