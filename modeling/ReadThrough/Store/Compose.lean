import ReadThrough.Members
import ReadThrough.Store.Request

namespace ReadThrough.Store

def contentType (value : Bytes) : String :=
  if value.head? = some 123 ∧ value.getLast? = some 125 then "application/json"
  else if value.head? = some 60 ∧ value.getLast? = some 62 then "application/xml"
  else "text/plain"

namespace Request

def compose (settings : Settings) (key : Key) (body : RequestBody) : Except Failure Request :=
  key.requireBucket.map fun key => { key, quorum := settings.quorum, body }

def setBucketType (settings : Settings) (key : Key) : Bytes :=
  key.ns.getD (Text.utf8 settings.setBucketType)

def get (settings : Settings) (key : Key) : Except Failure Request :=
  compose settings key .get

def put (settings : Settings) (key : Key) (value : Bytes) (vclock : Option Bytes) :
    Except Failure Request :=
  compose settings key (.put value (contentType value) vclock)

def delete (settings : Settings) (key : Key) : Except Failure Request :=
  compose settings key .delete

def setUpdate (settings : Settings) (key : Key) (action : SetAction) (members : List Bytes) :
    Except Failure Request :=
  if members = [] then .error .noMembers
  else compose settings key (.setUpdate (setBucketType settings key) action members)

def setReplace (settings : Settings) (key : Key) (current : List Bytes) (context : Option Bytes)
    (wanted : List Bytes) : Except Failure (Option Request) :=
  let adds := Members.without wanted current
  let removes := Members.without current wanted
  if adds = [] ∧ removes = [] then .ok none
  else
    (compose settings key
      (.setReplace (setBucketType settings key) adds removes context)).map some

def setFetch (settings : Settings) (key : Key) : Except Failure Request :=
  compose settings key (.setFetch (setBucketType settings key))

def counterUpdate (settings : Settings) (key : Key) (amount : Int64) : Except Failure Request :=
  compose settings key (.counterUpdate amount)

end Request

structure Deletion where
  stored : List Address
  cacheOnly : List Address
  deriving DecidableEq, Repr

def Deletion.ofKeys (keys : List Bytes) : Except Failure Deletion :=
  (keys.mapM Address.parse).map fun addresses =>
    { stored := addresses.filter (·.hasBucket)
      cacheOnly := addresses.filter fun a => !a.hasBucket }

end ReadThrough.Store
