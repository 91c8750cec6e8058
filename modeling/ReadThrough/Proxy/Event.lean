import ReadThrough.Proxy.ClientSide

namespace ReadThrough

inductive Event where
  | clientData (client : Nat) (data : Bytes)
  | command (client : Nat) (command : Command)
  | clientClosed (client : Nat)
  | cacheData (server : Nat) (data : Bytes)
  | cacheClosed (server : Nat)
  | storeData (server : Nat) (data : Bytes)
  | storeClosed (server : Nat)
  | storeTimeout (server : Nat)
  | policy (policy : BucketPolicy)
  | drain

namespace Proxy

def step (w : World) (p : Proxy) : Event → Proxy
  | .clientData client data => p.clientData w client data
  | .command client command => p.clientCommand w client command
  | .clientClosed client => p.clientClosed client
  | .cacheData server data => p.cacheData w server data
  | .cacheClosed server => p.loseCache w server
  | .storeData server data => p.storeData w server data
  | .storeClosed server => p.loseStore w server "connection closed"
  | .storeTimeout server => p.storeTimeout w server
  | .policy policy => { p with policy := p.policy.deliver policy }
  | .drain => p.drain.2

def run (w : World) (p : Proxy) (events : List Event) : Proxy :=
  events.foldl (fun p event => p.step w event) p

end Proxy

end ReadThrough
