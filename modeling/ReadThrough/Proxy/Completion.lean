import ReadThrough.Proxy.State

namespace ReadThrough.Proxy

def reply (p : Proxy) (client slot : Nat) (reply : Reply) : Proxy :=
  match p.clients.get? client with
  | none => p.breach (.absentClient client)
  | some link =>
      match link.replies.fill? slot reply with
      | none => p.breach (.slotNotFree client slot)
      | some replies =>
          let (ready, replies) := replies.drain
          ready.foldl (fun p filled => p.emit (.reply client filled.1 filled.2))
            (p.setClient client { link with replies })

def dispatch (p : Proxy) (id : Nat) (operation : Operation) (request : Store.Request)
    (server : Nat) : Proxy :=
  let link := p.storeLink server
  ((p.setStore server { link with pending := link.pending ++ [(id, request.kind)] }).emit
    (.store server id request)).addOperation id operation

def submit (w : World) (p : Proxy) (id : Nat) (operation : Operation) (request : Store.Request)
    (route : Bytes) : Except Failure Unit × Proxy :=
  match request.checkSize p.settings.maxFrameSize with
  | .error why => (.error why, p)
  | .ok () =>
      match p.pick w .store route with
      | (none, p) => (.error .noStoreServer, p)
      | (some server, p) =>
          let operation := { operation with request := some request, primary := some server }
          (.ok (), p.dispatch id operation request server)

def startStore (w : World) (p : Proxy) (client slot : Nat) (dest : Address)
    (members : List Bytes) : Proxy :=
  match Store.Request.setFetch p.settings dest.key with
  | .error why => p.reply client slot (Reply.failure why)
  | .ok request =>
      let (id, p) := p.newOperation
      let operation : Operation :=
        { client, target := .client slot, stage := .storeFetch dest members }
      match p.submit w id operation request dest.raw with
      | (.ok (), p) => p
      | (.error why, p) => p.reply client slot (Reply.failure why)

def missingSources (op : SetOperator) (failures : Nat) : Reply :=
  Reply.error (op.name ++ s!": {failures} source sets could not be fetched")

def completeGroup (w : World) (p : Proxy) (group : Fragment.Group GroupContext) : Proxy :=
  match group.context with
  | .del slot =>
      p.reply group.client slot (Reply.integer (group.gathered.count?.getD 0))
  | .algebra slot op dest =>
      if 0 < group.failures then
        p.reply group.client slot (missingSources op group.failures)
      else
        let result := Members.combine op group.gathered.toSets
        match dest with
        | none => p.reply group.client slot (Reply.members result)
        | some dest => p.startStore w group.client slot dest result

def contribute (w : World) (p : Proxy) (id : Nat) (part : Fragment.Part) : Proxy :=
  if p.groups.accepts id part then
    match p.groups.contribute id part with
    | (none, groups) => { p with groups }
    | (some group, groups) => completeGroup w { p with groups } group
  else p.breach (.partRefused id)

def finish (w : World) (p : Proxy) (operation : Operation) (reply : Reply) : Proxy :=
  match operation.target with
  | .client slot => p.reply operation.client slot reply
  | .fragment group _ => (p.breach (.replyToFragment group)).contribute w group .failed

def fail (w : World) (p : Proxy) (operation : Operation) (reply : Reply) : Proxy :=
  match operation.target with
  | .client slot => p.reply operation.client slot reply
  | .fragment group _ => p.contribute w group .failed

def failWith (w : World) (p : Proxy) (operation : Operation) (why : Failure) : Proxy :=
  p.fail w operation (Reply.failure why)

def send (w : World) (p : Proxy) (id : Nat) (operation : Operation) (request : Store.Request)
    (route : Bytes) : Proxy :=
  match p.submit w id operation request route with
  | (.ok (), p) => p
  | (.error why, p) => p.failWith w operation why

def finishStore (w : World) (p : Proxy) (operation : Operation) (dest : Address)
    (members : List Bytes) : Proxy :=
  (p.sideEffects w dest.raw (Cache.replaceSet dest.raw members (p.ttl dest))).finish w operation
    (Reply.count members.length)

end ReadThrough.Proxy
