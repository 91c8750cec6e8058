import ReadThrough.Key
import ReadThrough.Store.Frame
import ReadThrough.Store.Message

namespace ReadThrough.Store

inductive RequestKind where
  | get
  | put
  | delete
  | setUpdate
  | setFetch
  | counterFetch
  | counterUpdate
  deriving DecidableEq, Repr

namespace RequestKind

def requestCode : RequestKind → Code
  | .get => .getReq
  | .put => .putReq
  | .delete => .delReq
  | .setUpdate => .dtUpdateReq
  | .setFetch => .dtFetchReq
  | .counterFetch => .counterGetReq
  | .counterUpdate => .counterUpdateReq

def responseCode : RequestKind → Code
  | .get => .getResp
  | .put => .putResp
  | .delete => .delResp
  | .setUpdate => .dtUpdateResp
  | .setFetch => .dtFetchResp
  | .counterFetch => .counterGetResp
  | .counterUpdate => .counterUpdateResp

def hasBareAck : RequestKind → Bool
  | .put | .delete | .setUpdate => true
  | _ => false

def isIdempotentRead : RequestKind → Bool
  | .get | .setFetch | .counterFetch => true
  | _ => false

end RequestKind

inductive SetAction where
  | add
  | remove
  deriving DecidableEq, Repr

inductive RequestBody where
  | get
  | put (value : Bytes) (contentType : String) (vclock : Option Bytes)
  | delete
  | setUpdate (bucketType : Bytes) (action : SetAction) (members : List Bytes)
  | setReplace (bucketType : Bytes) (adds removes : List Bytes) (context : Option Bytes)
  | setFetch (bucketType : Bytes)
  | counterFetch
  | counterUpdate (amount : Int64)
  deriving DecidableEq, Repr

def RequestBody.kind : RequestBody → RequestKind
  | .get => .get
  | .put .. => .put
  | .delete => .delete
  | .setUpdate .. | .setReplace .. => .setUpdate
  | .setFetch _ => .setFetch
  | .counterFetch => .counterFetch
  | .counterUpdate _ => .counterUpdate

structure Request where
  key : Key
  quorum : Quorum
  body : RequestBody
  deriving DecidableEq, Repr

namespace Request

def kind (request : Request) : RequestKind :=
  request.body.kind

def getMessage (key : Key) (q : Quorum) : Message.GetReq :=
  { bucket := key.bucket, key := key.name, r := q.r, pr := q.pr, basicQuorum := q.basicQuorum
    notFoundOk := q.notFoundOk, deletedVclock := q.deletedVclock, timeout := q.timeout
    sloppyQuorum := q.sloppyQuorum, nVal := q.n, bucketType := key.ns }

def putMessage (key : Key) (q : Quorum) (value : Bytes) (contentType : String)
    (vclock : Option Bytes) : Message.PutReq :=
  { bucket := key.bucket, key := some key.name, vclock
    content := { value, contentType := some (Text.utf8 contentType) }
    w := q.w, pw := q.pw, timeout := q.timeout, sloppyQuorum := q.sloppyQuorum, nVal := q.n
    bucketType := key.ns }

def delMessage (key : Key) (q : Quorum) : Message.DelReq :=
  { bucket := key.bucket, key := key.name, w := q.w, pw := q.pw, timeout := q.timeout
    sloppyQuorum := q.sloppyQuorum, nVal := q.n, bucketType := key.ns }

def setMessage (key : Key) (q : Quorum) (bucketType : Bytes) (context : Option Bytes)
    (op : Message.SetOp) : Message.DtUpdateReq :=
  { bucket := key.bucket, key := some key.name, bucketType, context, op := { setOp := some op }
    w := q.w, pw := q.pw, timeout := q.timeout, sloppyQuorum := q.sloppyQuorum, nVal := q.n }

def setFetchMessage (key : Key) (q : Quorum) (bucketType : Bytes) : Message.DtFetchReq :=
  { bucket := key.bucket, key := key.name, bucketType, r := q.r, pr := q.pr
    basicQuorum := q.basicQuorum, notFoundOk := q.notFoundOk, timeout := q.timeout
    sloppyQuorum := q.sloppyQuorum, nVal := q.n }

def counterGetMessage (key : Key) (q : Quorum) : Message.CounterGetReq :=
  { bucket := key.bucket, key := key.name, r := q.r, pr := q.pr, basicQuorum := q.basicQuorum
    notFoundOk := q.notFoundOk }

def counterUpdateMessage (key : Key) (q : Quorum) (amount : Int64) : Message.CounterUpdateReq :=
  { bucket := key.bucket, key := key.name, amount, w := q.w, pw := q.pw, returnValue := some true }

def payload (request : Request) : Bytes :=
  let key := request.key
  let q := request.quorum
  match request.body with
  | .get => Protobuf.Message.encode (getMessage key q)
  | .put value contentType vclock =>
      Protobuf.Message.encode (putMessage key q value contentType vclock)
  | .delete => Protobuf.Message.encode (delMessage key q)
  | .setUpdate bucketType .add members =>
      Protobuf.Message.encode (setMessage key q bucketType none { adds := members })
  | .setUpdate bucketType .remove members =>
      Protobuf.Message.encode (setMessage key q bucketType none { removes := members })
  | .setReplace bucketType adds removes context =>
      Protobuf.Message.encode (setMessage key q bucketType context { adds, removes })
  | .setFetch bucketType => Protobuf.Message.encode (setFetchMessage key q bucketType)
  | .counterFetch => Protobuf.Message.encode (counterGetMessage key q)
  | .counterUpdate amount => Protobuf.Message.encode (counterUpdateMessage key q amount)

def frame (request : Request) : Frame :=
  { code := request.kind.requestCode.byte, payload := request.payload }

def encode (request : Request) : Bytes :=
  request.frame.encode

def checkSize (limit : Nat) (request : Request) : Except Failure Unit :=
  if limit < request.frame.size ∨ Frame.maxLength ≤ request.payload.length then
    .error (.frameTooLarge request.kind.requestCode request.frame.size limit)
  else .ok ()

end Request

end ReadThrough.Store
