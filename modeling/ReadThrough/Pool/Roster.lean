import ReadThrough.Pool.Server

namespace ReadThrough.Pool

structure Server where
  name : String
  retryAt : Option Nat := none
  deriving DecidableEq, Repr

def Server.isLive (now : Nat) (server : Server) : Bool :=
  server.retryAt.all fun time => time ≤ now

structure Roster where
  cache : List Server
  store : List Server
  deriving DecidableEq, Repr

namespace Roster

def ofNames (cache store : List String) : Roster :=
  { cache := cache.map ({ name := · }), store := store.map ({ name := · }) }

def servers (roster : Roster) : Tier → List Server
  | .cache => roster.cache
  | .store => roster.store

def size (roster : Roster) (tier : Tier) : Nat :=
  (roster.servers tier).length

def name? (roster : Roster) (tier : Tier) (server : Nat) : Option String :=
  ((roster.servers tier)[server]?).map Server.name

def live (roster : Roster) (now : Nat) (tier : Tier) : List Nat :=
  ((roster.servers tier).zipIdx.filter fun s => s.1.isLive now).map Prod.snd

def pick (roster : Roster) (now : Nat) (tier : Tier) (key : Bytes) : Option Nat :=
  let live := roster.live now tier
  live[(hash key).toNat % live.length]?

def view (roster : Roster) (now : Nat) : View :=
  { pick := roster.pick now, live := roster.live now }

def adjust (roster : Roster) (tier : Tier) (server : Nat) (f : Server → Server) : Roster :=
  match tier with
  | .cache => { roster with cache := roster.cache.modify server f }
  | .store => { roster with store := roster.store.modify server f }

def eject (roster : Roster) (now : Nat) (tier : Tier) (server cooldown : Nat) : Roster :=
  roster.adjust tier server fun s => { s with retryAt := some (now + cooldown) }

def restore (roster : Roster) (tier : Tier) (server : Nat) : Roster :=
  roster.adjust tier server fun s => { s with retryAt := none }

end Roster

end ReadThrough.Pool
