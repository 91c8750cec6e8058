import ReadThrough.Cache.Command
import ReadThrough.Reply

namespace ReadThrough.Cache

def populateValue (key value : Bytes) (ttl : Option Nat) : Command :=
  .set key value ttl

def populateSet (key : Bytes) (members : List Bytes) (ttl : Option Nat) : List Command :=
  if members = [] then [] else .sadd key members :: (ttl.map (Command.pexpire key)).toList

def replaceSet (key : Bytes) (members : List Bytes) (ttl : Option Nat) : List Command :=
  .del key :: populateSet key members ttl

def invalidate (key : Bytes) : Command :=
  .pexpire key 0

def isMiss (query : SetQuery) (answer : Resp.Value) : Bool :=
  match query, answer with
  | _, .error _ => true
  | .members, .array items => items.isEmpty
  | .contains _, .integer n => n == 0
  | .card, .integer n => n == 0
  | _, answer => answer.isNil

def members? : Resp.Value → Option (List Bytes)
  | .array [] => none
  | .array items => some (items.filterMap Resp.Value.bytes?)
  | _ => none

end ReadThrough.Cache
