import ReadThrough.Proofs.Messages

namespace ReadThrough.Store

namespace RequestKind

abbrev message : RequestKind → Message.Kind
  | .get => .getReq
  | .put => .putReq
  | .delete => .delReq
  | .setUpdate => .dtUpdateReq
  | .setFetch => .dtFetchReq
  | .counterFetch => .counterGetReq
  | .counterUpdate => .counterUpdateReq

def heeds (kind : RequestKind) (q : Quorum) : Quorum :=
  match kind with
  | .get =>
      { r := q.r, pr := q.pr, n := q.n, basicQuorum := q.basicQuorum, sloppyQuorum := q.sloppyQuorum
        notFoundOk := q.notFoundOk, deletedVclock := q.deletedVclock, timeout := q.timeout }
  | .put | .delete | .setUpdate =>
      { w := q.w, pw := q.pw, n := q.n, sloppyQuorum := q.sloppyQuorum, timeout := q.timeout }
  | .setFetch =>
      { r := q.r, pr := q.pr, n := q.n, basicQuorum := q.basicQuorum, sloppyQuorum := q.sloppyQuorum
        notFoundOk := q.notFoundOk, timeout := q.timeout }
  | .counterUpdate => { w := q.w, pw := q.pw }
  | .counterFetch =>
      { r := q.r, pr := q.pr, basicQuorum := q.basicQuorum, notFoundOk := q.notFoundOk }

def policy : (kind : RequestKind) → kind.message.Record → Quorum
  | .get, (m : Message.GetReq) =>
      { r := m.r, pr := m.pr, n := m.nVal, basicQuorum := m.basicQuorum
        sloppyQuorum := m.sloppyQuorum, notFoundOk := m.notFoundOk, deletedVclock := m.deletedVclock
        timeout := m.timeout }
  | .put, (m : Message.PutReq) =>
      { w := m.w, pw := m.pw, n := m.nVal, sloppyQuorum := m.sloppyQuorum, timeout := m.timeout }
  | .delete, (m : Message.DelReq) =>
      { w := m.w, pw := m.pw, n := m.nVal, sloppyQuorum := m.sloppyQuorum, timeout := m.timeout }
  | .setUpdate, (m : Message.DtUpdateReq) =>
      { w := m.w, pw := m.pw, n := m.nVal, sloppyQuorum := m.sloppyQuorum, timeout := m.timeout }
  | .setFetch, (m : Message.DtFetchReq) =>
      { r := m.r, pr := m.pr, n := m.nVal, basicQuorum := m.basicQuorum
        sloppyQuorum := m.sloppyQuorum, notFoundOk := m.notFoundOk, timeout := m.timeout }
  | .counterUpdate, (m : Message.CounterUpdateReq) => { w := m.w, pw := m.pw }
  | .counterFetch, (m : Message.CounterGetReq) =>
      { r := m.r, pr := m.pr, basicQuorum := m.basicQuorum, notFoundOk := m.notFoundOk }

end RequestKind

namespace RequestBody

def Told (key : Key) : (body : RequestBody) → body.kind.message.Record → Prop
  | .get, (m : Message.GetReq) =>
      m.bucket = key.bucket ∧ m.key = key.name ∧ m.bucketType = key.ns
  | .put value contentType vclock, (m : Message.PutReq) =>
      m.bucket = key.bucket ∧ m.key = some key.name ∧ m.bucketType = key.ns ∧ m.vclock = vclock ∧
        m.content = { value, contentType := some (Text.utf8 contentType) } ∧ m.returnBody = none
  | .delete, (m : Message.DelReq) =>
      m.bucket = key.bucket ∧ m.key = key.name ∧ m.bucketType = key.ns ∧ m.vclock = none
  | .setUpdate bucketType action members, (m : Message.DtUpdateReq) =>
      m.bucket = key.bucket ∧ m.key = some key.name ∧ m.bucketType = bucketType ∧
        m.context = none ∧ m.returnBody = none ∧
        m.op.setOp = some (match action with
          | .add => { adds := members, removes := [] }
          | .remove => { adds := [], removes := members })
  | .setReplace bucketType adds removes context, (m : Message.DtUpdateReq) =>
      m.bucket = key.bucket ∧ m.key = some key.name ∧ m.bucketType = bucketType ∧
        m.context = context ∧ m.returnBody = none ∧ m.op.setOp = some { adds, removes }
  | .setFetch bucketType, (m : Message.DtFetchReq) =>
      m.bucket = key.bucket ∧ m.key = key.name ∧ m.bucketType = bucketType ∧
        m.includeContext = none
  | .counterFetch, (m : Message.CounterGetReq) => m.bucket = key.bucket ∧ m.key = key.name
  | .counterUpdate amount, (m : Message.CounterUpdateReq) =>
      m.bucket = key.bucket ∧ m.key = key.name ∧ m.amount = amount ∧ m.returnValue = some true

def message (key : Key) (q : Quorum) : (body : RequestBody) → body.kind.message.Record
  | .get => Request.getMessage key q
  | .put value contentType vclock => Request.putMessage key q value contentType vclock
  | .delete => Request.delMessage key q
  | .setUpdate bucketType .add members =>
      Request.setMessage key q bucketType none { adds := members }
  | .setUpdate bucketType .remove members =>
      Request.setMessage key q bucketType none { removes := members }
  | .setReplace bucketType adds removes context =>
      Request.setMessage key q bucketType context { adds, removes }
  | .setFetch bucketType => Request.setFetchMessage key q bucketType
  | .counterFetch => Request.counterGetMessage key q
  | .counterUpdate amount => Request.counterUpdateMessage key q amount

variable (key : Key) (q : Quorum) (body : RequestBody)

theorem told_message : body.Told key (body.message key q) := by
  cases body with
  | get => exact ⟨rfl, rfl, rfl⟩
  | put => exact ⟨rfl, rfl, rfl, rfl, rfl, rfl⟩
  | delete => exact ⟨rfl, rfl, rfl, rfl⟩
  | setUpdate bucketType action members =>
      cases action with
      | add | remove => exact ⟨rfl, rfl, rfl, rfl, rfl, rfl⟩
  | setReplace => exact ⟨rfl, rfl, rfl, rfl, rfl, rfl⟩
  | setFetch => exact ⟨rfl, rfl, rfl, rfl⟩
  | counterFetch => exact ⟨rfl, rfl⟩
  | counterUpdate => exact ⟨rfl, rfl, rfl, rfl⟩

theorem policy_message : body.kind.policy (body.message key q) = body.kind.heeds q := by
  cases body with
  | setUpdate bucketType action members => cases action <;> rfl
  | _ => rfl

theorem message_heeds : body.message key (body.kind.heeds q) = body.message key q := by
  cases body with
  | setUpdate bucketType action members => cases action <;> rfl
  | _ => rfl

end RequestBody

namespace Request

theorem payload_eq (request : Request) : request.payload =
    Protobuf.Message.encode (request.body.message request.key request.quorum) := by
  obtain ⟨key, q, body⟩ := request
  cases body with
  | setUpdate bucketType action members => cases action <;> rfl
  | _ => rfl

theorem conveyed (request : Request) (short : request.payload.length < Protobuf.Varint.limit) :
    (∃ message : request.kind.message.Record,
      Protobuf.Message.decode request.payload = .ok message ∧
      request.body.Told request.key message ∧
      request.kind.policy message = request.kind.heeds request.quorum) ∧
    ∀ quorum, request.kind.heeds quorum = request.kind.heeds request.quorum →
      ({ request with quorum } : Request).payload = request.payload := by
  refine ⟨⟨request.body.message request.key request.quorum, ?_, RequestBody.told_message _ _ _,
    RequestBody.policy_message _ _ _⟩, fun quorum same => ?_⟩
  · rw [payload_eq] at short ⊢
    exact (Message.faithful_record request.kind.message).decode_encode (by decide) short
  · rw [payload_eq, payload_eq request]
    change Protobuf.Message.encode (request.body.message request.key quorum) = _
    rw [← RequestBody.message_heeds request.key quorum,
      ← RequestBody.message_heeds request.key request.quorum]
    exact congrArg (fun q => Protobuf.Message.encode (request.body.message request.key q)) same

theorem conveyed_counterUpdate :
    let quorum : Quorum :=
      { r := some 1, pr := some 2, w := some 3, pw := some 4, n := some 5, basicQuorum := some true
        sloppyQuorum := some false, notFoundOk := some true, deletedVclock := some false
        timeout := some 0 }
    let request : Request :=
      { key := ⟨some [110], [98], [107]⟩, quorum, body := .counterUpdate (-1) }
    request.payload.length < Protobuf.Varint.limit ∧ ∃ message : Message.CounterUpdateReq,
      Protobuf.Message.decode request.payload = .ok message ∧
      (message.bucket = [98] ∧ message.key = [107] ∧ message.amount = -1 ∧
        message.returnValue = some true) ∧
      RequestKind.policy .counterUpdate message = { w := some 3, pw := some 4 } := by
  intro quorum request
  have short : request.payload.length < Protobuf.Varint.limit := by decide +kernel
  exact ⟨short, (conveyed request short).1⟩

end Request

end ReadThrough.Store
