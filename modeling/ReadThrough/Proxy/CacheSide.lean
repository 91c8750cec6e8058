import ReadThrough.Proxy.Completion

namespace ReadThrough.Proxy

def Read.lookup : Read → Cache.Command
  | .value address => .get address.raw
  | .set address (.query (.contains member)) => .sismember address.raw member
  | .set address (.query .card) => .scard address.raw
  | .set address (.query .members) => .smembers address.raw
  | .set address .slot => .smembers address.raw

def Read.request (settings : Settings) : Read → Except Failure Store.Request
  | .value address => Store.Request.get settings address.key
  | .set address _ => Store.Request.setFetch settings address.key

def answerEmpty (w : World) (p : Proxy) (operation : Operation) (read : Read) : Proxy :=
  match read, operation.target with
  | .value _, _ => p.finish w operation Reply.nil
  | .set _ (.query query), _ => p.finish w operation (query.answer [])
  | .set _ .slot, .fragment group slot => p.contribute w group (.set slot [])
  | .set _ .slot, .client _ => p.finish w operation (Reply.members [])

def cacheMiss (w : World) (p : Proxy) (id : Nat) (operation : Operation) : Proxy :=
  match operation.stage with
  | .cacheRead read =>
      if !read.address.hasBucket then p.answerEmpty w operation read
      else
        let operation := { operation with stage := .storeRead read }
        match read.request p.settings with
        | .ok request => p.send w id operation request read.address.raw
        | .error why => p.failWith w operation why
  | stage => (p.breach (.stageMismatch stage.name)).failWith w operation .unexpectedCacheMiss

def startRead (w : World) (p : Proxy) (client : Nat) (target : Target) (read : Read) : Proxy :=
  let (id, p) := p.newOperation
  let operation : Operation := { client, target, stage := .cacheRead read }
  match p.pick w .cache read.address.raw with
  | (none, p) => p.cacheMiss w id operation
  | (some server, p) =>
      (p.ask server (.operation id) read.lookup).addOperation id operation

def cacheReply (w : World) (p : Proxy) (id : Nat) (operation : Operation)
    (value : Resp.Value) : Proxy :=
  match operation.stage with
  | .cacheRead read =>
      if value.isError then p.cacheMiss w id operation
      else
        match read with
        | .value _ =>
            if value.isNil then p.cacheMiss w id operation else p.finish w operation value
        | .set _ (.query query) =>
            if Cache.isMiss query value then p.cacheMiss w id operation
            else p.finish w operation value
        | .set _ .slot =>
            match Cache.members? value, operation.target with
            | some members, .fragment group slot => p.contribute w group (.set slot members)
            | _, _ => p.cacheMiss w id operation
  | stage => (p.breach (.stageMismatch stage.name)).failWith w operation .unexpectedCacheReply

def cacheAnswer (w : World) (p : Proxy) (entry : CacheEntry) (value : Resp.Value) : Proxy :=
  match entry with
  | .sideEffect => p
  | .operation id =>
      match p.takeOperation id with
      | none => p
      | some (operation, p) => p.cacheReply w id operation value

def cacheSilence (w : World) (p : Proxy) (entry : CacheEntry) : Proxy :=
  match entry with
  | .sideEffect => p
  | .operation id =>
      match p.takeOperation id with
      | none => p
      | some (operation, p) => p.cacheMiss w id operation

def loseCache (w : World) (p : Proxy) (server : Nat) : Proxy :=
  (p.cacheLink server).pending.foldl (fun p entry => p.cacheSilence w entry)
    { p with caches := p.caches.erase server }

def closeCache (w : World) (p : Proxy) (server : Nat) : Proxy :=
  (p.emit (.closeCache server)).loseCache w server

def cacheValues (w : World) (server : Nat) (ending : Ending) : List Resp.Value → Proxy → Proxy
  | [], p =>
      match ending with
      | .waiting rest => p.setCache server { p.cacheLink server with inbound := ⟨rest⟩ }
      | .refused _ => p.closeCache w server
  | value :: values, p =>
      let link := p.cacheLink server
      match link.pending with
      | [] => p.closeCache w server
      | entry :: pending =>
          cacheValues w server ending values
            ((p.setCache server { link with pending }).cacheAnswer w entry value)

def cacheData (w : World) (p : Proxy) (server : Nat) (data : Bytes) : Proxy :=
  let (values, ending) := Resp.reader.stream ((p.cacheLink server).inbound.append data).bytes
  cacheValues w server ending values p

end ReadThrough.Proxy
