import ReadThrough.Members
import ReadThrough.Store.Request
import ReadThrough.Store.Sibling

namespace ReadThrough.Store

inductive Response where
  | found (siblings : List Sibling) (vclock : Option Bytes)
  | putAck (vclock : Option Bytes)
  | deleteAck
  | set (members : List Bytes) (context : Option Bytes)
  | counter (value : Int64)
  | updateAck
  | error (message : String) (code : UInt32)
  deriving DecidableEq, Repr

namespace Response

def isError : Response → Bool
  | .error .. => true
  | _ => false

def isNotFound : Response → Bool
  | .found siblings _ => siblings.all (·.deleted)
  | .set members _ => members.isEmpty
  | _ => false

def bareAck : RequestKind → Response
  | .put => .putAck none
  | .setUpdate => .updateAck
  | _ => .deleteAck

def siblingOf (content : Message.Content) : Sibling where
  value := content.value
  contentType := content.contentType
  lastModified :=
    match content.lastMod, content.lastModUsecs with
    | some secs, some usecs => some (secs, usecs)
    | _, _ => none
  deleted := content.deleted.getD false

def record {ρ : Type} [Protobuf.Message ρ] (payload : Bytes) : Except Failure ρ :=
  match Protobuf.Message.decode payload with
  | .ok message => .ok message
  | .error fault => .error (.record fault)

def ofError (message : Message.ErrorResp) : Response :=
  .error (Text.lossy message.message) message.code

def ofGet (message : Message.GetResp) : Response :=
  .found (message.content.map siblingOf) message.vclock

def ofPut (message : Message.PutResp) : Response :=
  .putAck message.vclock

def ofSet (message : Message.DtFetchResp) : Except Failure Response :=
  match message.value with
  | none => .ok (.set [] message.context)
  | some value =>
      if message.dataType ≠ Message.setType then .error (.notASet message.dataType)
      else .ok (.set (Members.distinct value.setValue) message.context)

def ofCounter (message : Message.CounterResp) : Response :=
  .counter (message.value.getD 0)

def decodeAwaited (kind : RequestKind) (payload : Bytes) : Except Failure Response :=
  match kind with
  | .get => (record payload).map ofGet
  | .put => (record payload).map ofPut
  | .delete => .ok .deleteAck
  | .setUpdate => (record (ρ := Message.DtUpdateResp) payload).map fun _ => .updateAck
  | .setFetch => (record payload).bind ofSet
  | .counterFetch | .counterUpdate => (record payload).map ofCounter

/-- An unknown code is an answer, if none that helps; a known one has to be that of an error or of
the awaited response. -/
def decode (code : UInt8) (payload : Bytes) (awaited : RequestKind) : Except Failure Response :=
  match Code.ofByte? code with
  | none => .ok (.error s!"unknown message code {code}" 0)
  | some received =>
      if received = .errorResp then
        if payload.isEmpty && awaited.hasBareAck then .ok (bareAck awaited)
        else (record payload).map ofError
      else if received ≠ awaited.responseCode then
        .error (.codeMismatch received awaited.responseCode)
      else decodeAwaited awaited payload

def contentOf (sibling : Sibling) : Message.Content :=
  { value := sibling.value, contentType := sibling.contentType
    lastMod := sibling.lastModified.map Prod.fst
    lastModUsecs := sibling.lastModified.map Prod.snd
    deleted := if sibling.deleted then some true else none }

def frame (kind : RequestKind) : Response → Frame
  | .found siblings vclock =>
      { code := Code.getResp.byte
        payload := Protobuf.Message.encode
          { content := siblings.map contentOf, vclock : Message.GetResp } }
  | .putAck vclock =>
      { code := Code.putResp.byte
        payload := Protobuf.Message.encode { vclock : Message.PutResp } }
  | .deleteAck => { code := Code.delResp.byte, payload := [] }
  | .updateAck => { code := Code.dtUpdateResp.byte, payload := [] }
  | .set members context =>
      { code := Code.dtFetchResp.byte
        payload := Protobuf.Message.encode
          { context, dataType := Message.setType
            value := some { setValue := members } : Message.DtFetchResp } }
  | .counter value =>
      { code := (if kind = .counterFetch then Code.counterGetResp else Code.counterUpdateResp).byte
        payload := Protobuf.Message.encode { value := some value : Message.CounterResp } }
  | .error message code =>
      { code := Code.errorResp.byte
        payload := Protobuf.Message.encode
          { message := Text.utf8 message, code : Message.ErrorResp } }

def transientWords : List String :=
  ["timeout", "overload", "insufficient_vnodes", "unavailable"]

def occursIn {α : Type} [BEq α] (word : List α) : List α → Bool
  | [] => word.isEmpty
  | c :: rest => word.isPrefixOf (c :: rest) || occursIn word rest

def classify (message : String) : Failure :=
  if transientWords.any fun word => occursIn word.toList message.toLower.toList then
    .transientStoreError message
  else .storeError message

end Response

inductive Outcome where
  | missing (vclock : Option Bytes)
  | found (value : Bytes) (vclock : Option Bytes)
  deriving DecidableEq, Repr

/-- A value that opens with a double quote loses its first and its last byte, if it has both. -/
def stripQuotes (value : Bytes) : Bytes :=
  if 1 < value.length ∧ value.head? = some 34 then (value.drop 1).dropLast else value

def Outcome.ofSiblings (draw : Nat) (siblings : List Sibling) (vclock : Option Bytes) : Outcome :=
  match Sibling.pick draw siblings with
  | some sibling => .found (stripQuotes sibling.value) vclock
  | none => .missing vclock

def Response.outcome? (draw : Nat) : Response → Option Outcome
  | .found siblings vclock => some (.ofSiblings draw siblings vclock)
  | _ => none

end ReadThrough.Store
