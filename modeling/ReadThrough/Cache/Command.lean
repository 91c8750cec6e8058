import ReadThrough.Resp.Value

namespace ReadThrough.Cache

inductive Command where
  | get (key : Bytes)
  | set (key value : Bytes) (ttl : Option Nat)
  | sadd (key : Bytes) (members : List Bytes)
  | pexpire (key : Bytes) (ttl : Nat)
  | del (key : Bytes)
  | smembers (key : Bytes)
  | sismember (key member : Bytes)
  | scard (key : Bytes)
  deriving DecidableEq, Repr

namespace Command

def words : Command → List Bytes
  | .get key => [ascii "get", key]
  | .set key value none => [ascii "set", key, value]
  | .set key value (some ttl) => [ascii "set", key, value, ascii "px", Decimal.ofNat ttl]
  | .sadd key members => ascii "sadd" :: key :: members
  | .pexpire key ttl => [ascii "pexpire", key, Decimal.ofNat ttl]
  | .del key => [ascii "del", key]
  | .smembers key => [ascii "smembers", key]
  | .sismember key member => [ascii "sismember", key, member]
  | .scard key => [ascii "scard", key]

def key : Command → Bytes
  | .get key | .set key _ _ | .sadd key _ | .pexpire key _ | .del key | .smembers key
  | .sismember key _ | .scard key => key

def encode (command : Command) : Bytes :=
  Resp.encodeWords command.words

end Command

end ReadThrough.Cache
