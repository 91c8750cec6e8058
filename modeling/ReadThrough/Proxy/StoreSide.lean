import ReadThrough.Proxy.CacheSide
import ReadThrough.Store.Answer

namespace ReadThrough.Proxy

def nextServer (w : World) (p : Proxy) (operation : Operation) (primary : Nat) :
    Option Nat × Operation × Proxy :=
  let (pool, p) := p.look w
  let (server, resend) :=
    operation.resend.next (pool.live .store) primary p.settings.effectiveMaxResend
  (server, { operation with resend }, p)

def dispatchAgain (w : World) (p : Proxy) (id : Nat) (operation : Operation)
    (server : Nat) : Proxy :=
  match operation.request with
  | some request => p.dispatch id operation request server
  | none => (p.breach .requestMissing).failWith w operation .requestNotEncoded

def retryOrFail (w : World) (p : Proxy) (id : Nat) (operation : Operation) (failed : Nat)
    (reason : String) : Proxy :=
  if operation.isResendable then
    match p.nextServer w operation (operation.primary.getD failed) with
    | (some server, operation, p) => p.dispatchAgain w id operation server
    | (none, operation, p) => p.failWith w operation (.serverLost failed reason)
  else p.failWith w operation (.serverLost failed reason)

def resendNotFound (w : World) (p : Proxy) (id : Nat) (operation : Operation) :
    Option Operation × Proxy :=
  if operation.isResendable then
    match operation.primary with
    | none => (some operation, p)
    | some primary =>
        match p.nextServer w operation primary with
        | (some server, operation, p) => (none, p.dispatchAgain w id operation server)
        | (none, operation, p) => (some operation, p)
  else (some operation, p)

def unexpected (w : World) (p : Proxy) (operation : Operation) (message : String) : Proxy :=
  (p.breach (.unexpectedResponse operation.stage.name)).fail w operation (Reply.error message)

def valueRead (w : World) (p : Proxy) (id : Nat) (operation : Operation) (address : Address)
    (response : Store.Response) : Proxy :=
  match response with
  | .found siblings vclock =>
      let (draw, p) := p.toss w
      let p := p.rememberVclock address vclock
      match Store.Outcome.ofSiblings draw siblings vclock with
      | .found value _ =>
          (p.sideEffect w address.raw
            (Cache.populateValue address.raw value (p.ttl address))).finish w operation
            (Reply.bulk value)
      | .missing _ =>
          match p.resendNotFound w id operation with
          | (none, p) => p
          | (some operation, p) => p.finish w operation Reply.nil
  | _ => p.unexpected w operation "unexpected response to a get"

def SetRead.isQuery : SetRead → Bool
  | .query _ => true
  | .slot => false

def deliverSet (w : World) (p : Proxy) (operation : Operation) (read : SetRead)
    (members : List Bytes) : Proxy :=
  match read, operation.target with
  | .query query, _ => p.finish w operation (query.answer members)
  | .slot, .fragment group slot => p.contribute w group (.set slot members)
  | .slot, .client _ => p.finish w operation (Reply.members members)

def setRead (w : World) (p : Proxy) (id : Nat) (operation : Operation) (address : Address)
    (read : SetRead) (response : Store.Response) : Proxy :=
  match response with
  | .set members _ =>
      let (kept, p) :=
        if members.isEmpty && read.isQuery then p.resendNotFound w id operation
        else (some operation, p)
      match kept with
      | none => p
      | some operation =>
          (p.sideEffects w address.raw
            (Cache.populateSet address.raw members (p.ttl address))).deliverSet w operation read
            members
  | _ => p.unexpected w operation "unexpected response to a set fetch"

def withVclock (request : Store.Request) (vclock : Option Bytes) : Store.Request :=
  match request.body with
  | .put value contentType _ =>
      { request with body := .put value contentType (vclock.filter (· ≠ [])) }
  | _ => request

def vclockRead (w : World) (p : Proxy) (id : Nat) (operation : Operation) (address : Address)
    (value : Bytes) (deferred : Store.Request) (response : Store.Response) : Proxy :=
  match response with
  | .found _ vclock =>
      let write : Operation :=
        { client := operation.client, target := operation.target
          stage := .storeWrite (.put address value) }
      (p.rememberVclock address vclock).send w id write (withVclock deferred vclock) address.raw
  | _ => p.unexpected w operation "unexpected response to a vclock fetch"

def storeFetched (w : World) (p : Proxy) (id : Nat) (operation : Operation) (dest : Address)
    (members : List Bytes) (response : Store.Response) : Proxy :=
  match response with
  | .set current context =>
      match Store.Request.setReplace p.settings dest.key current context members with
      | .ok (some request) =>
          let write : Operation :=
            { client := operation.client, target := operation.target
              stage := .storeWrite (.store dest members) }
          p.send w id write request dest.raw
      | .ok none => p.finishStore w operation dest members
      | .error why => p.failWith w operation why
  | _ => p.unexpected w operation "unexpected response to a set fetch"

def invalidate (w : World) (p : Proxy) (address : Address) : Proxy :=
  p.sideEffect w address.raw (Cache.invalidate address.raw)

def written (w : World) (p : Proxy) (operation : Operation) (write : Write)
    (response : Store.Response) : Proxy :=
  match write, response with
  | .put address value, .putAck vclock =>
      let p := p.rememberVclock address vclock
      (p.sideEffect w address.raw
        (Cache.populateValue address.raw value (p.ttl address))).finish w operation Reply.ok
  | .setUpdate address count, .updateAck =>
      (p.invalidate w address).finish w operation (Reply.count count)
  | .counter address, .counter value =>
      (p.invalidate w address).finish w operation (Reply.integer value)
  | .delete address, .deleteAck =>
      let p := p.invalidate w address
      match operation.target with
      | .fragment group _ => p.contribute w group (.count 1)
      | .client _ => p.finish w operation (Reply.integer 1)
  | .store dest members, .updateAck => p.finishStore w operation dest members
  | _, _ => p.unexpected w operation "unexpected backend response"

def storeResponse (w : World) (p : Proxy) (id : Nat) (operation : Operation) (server : Nat)
    (response : Store.Response) : Proxy :=
  match response with
  | .error message _ =>
      if (Store.Response.classify message).kind.isRetryable && operation.isResendable then
        p.retryOrFail w id operation server message
      else p.fail w operation (Reply.error message)
  | _ =>
      match operation.stage with
      | .storeRead (.value address) => p.valueRead w id operation address response
      | .storeRead (.set address read) => p.setRead w id operation address read response
      | .awaitingVclock address value deferred =>
          p.vclockRead w id operation address value deferred response
      | .storeFetch dest members => p.storeFetched w id operation dest members response
      | .storeWrite write => p.written w operation write response
      | .cacheRead read =>
          (p.breach (.stageMismatch (Stage.cacheRead read).name)).failWith w operation
            .responseToCacheRead

def eachPending (f : Proxy → Nat → Operation → Proxy) (pending : List (Nat × Store.RequestKind))
    (p : Proxy) : Proxy :=
  pending.foldl
    (fun p entry =>
      match p.takeOperation entry.1 with
      | none => p
      | some (operation, p) => f p entry.1 operation) p

def eraseStore (p : Proxy) (server : Nat) : Proxy :=
  { p with stores := p.stores.erase server }

def closeStore (w : World) (p : Proxy) (server : Nat) (why : Failure) : Proxy :=
  eachPending (fun p _ operation => p.failWith w operation (.connectionReset why))
    (p.storeLink server).pending ((p.emit (.closeStore server)).eraseStore server)

def loseStore (w : World) (p : Proxy) (server : Nat) (reason : String) : Proxy :=
  eachPending (fun p id operation => p.retryOrFail w id operation server reason)
    (p.storeLink server).pending (p.eraseStore server)

def storeTimeout (w : World) (p : Proxy) (server : Nat) : Proxy :=
  (p.emit (.closeStore server)).loseStore w server "request timed out"

/-- Pairs the frames that a server has sent with what it was asked. A frame beyond that, one that
cannot be read, and bytes that are none, end the connection. -/
def storeFrames (w : World) (server : Nat) (ending : Ending) : List Store.Frame → Proxy → Proxy
  | [], p =>
      match ending with
      | .waiting rest => p.setStore server { p.storeLink server with inbound := ⟨rest⟩ }
      | .refused why => p.closeStore w server why
  | frame :: frames, p =>
      let link := p.storeLink server
      match link.pending with
      | [] => p.closeStore w server (.unrequestedResponse frame.code)
      | (id, kind) :: pending =>
          let p := p.setStore server { link with pending }
          match Store.Response.decode frame.code frame.payload kind with
          | .ok response =>
              storeFrames w server ending frames
                (match p.takeOperation id with
                | none => p
                | some (operation, p) => p.storeResponse w id operation server response)
          | .error why =>
              let p :=
                match p.takeOperation id with
                | none => p
                | some (operation, p) => p.failWith w operation (.undecodableResponse why)
              if why.kind.isFatalToConnection then p.closeStore w server why
              else storeFrames w server ending frames p

def storeData (w : World) (p : Proxy) (server : Nat) (data : Bytes) : Proxy :=
  let (frames, ending) :=
    Store.Frame.reader.stream ((p.storeLink server).inbound.append data).bytes
  storeFrames w server ending frames p

end ReadThrough.Proxy
