import ReadThrough.Proofs.Outcomes
import ReadThrough.Proofs.Records
import ReadThrough.Store.Request

namespace ReadThrough.Store

namespace Message

open Protobuf (faithful_bytes faithful_uint32 faithful_bool faithful_sint64)
open Protobuf.Message (Faithful)

variable {depth : Nat}

theorem faithful_content : Faithful Content depth where
  distinct := by decide
  bounded := by decide
  restores _ :=
    .single faithful_bytes rfl <| .optional faithful_bytes rfl rfl <|
    .optional faithful_bytes rfl rfl <| .optional faithful_bytes rfl rfl <|
    .optional faithful_bytes rfl rfl <| .optional faithful_uint32 rfl rfl <|
    .optional faithful_uint32 rfl rfl <| .optional faithful_bool rfl rfl .done

theorem faithful_getReq : Faithful GetReq depth where
  distinct := by decide
  bounded := by decide
  restores _ :=
    .single faithful_bytes rfl <| .single faithful_bytes rfl <|
    .optional faithful_uint32 rfl rfl <| .optional faithful_uint32 rfl rfl <|
    .optional faithful_bool rfl rfl <| .optional faithful_bool rfl rfl <|
    .optional faithful_bool rfl rfl <| .optional faithful_uint32 rfl rfl <|
    .optional faithful_bool rfl rfl <| .optional faithful_uint32 rfl rfl <|
    .optional faithful_bytes rfl rfl .done

theorem faithful_putReq : Faithful PutReq (depth + 1) where
  distinct := by decide
  bounded := by decide
  restores _ :=
    .single faithful_bytes rfl <| .optional faithful_bytes rfl rfl <|
    .optional faithful_bytes rfl rfl <| .single faithful_content.message rfl <|
    .optional faithful_uint32 rfl rfl <| .optional faithful_bool rfl rfl <|
    .optional faithful_uint32 rfl rfl <| .optional faithful_uint32 rfl rfl <|
    .optional faithful_bool rfl rfl <| .optional faithful_uint32 rfl rfl <|
    .optional faithful_bytes rfl rfl .done

theorem faithful_delReq : Faithful DelReq depth where
  distinct := by decide
  bounded := by decide
  restores _ :=
    .single faithful_bytes rfl <| .single faithful_bytes rfl <|
    .optional faithful_bytes rfl rfl <| .optional faithful_uint32 rfl rfl <|
    .optional faithful_uint32 rfl rfl <| .optional faithful_uint32 rfl rfl <|
    .optional faithful_bool rfl rfl <| .optional faithful_uint32 rfl rfl <|
    .optional faithful_bytes rfl rfl .done

theorem faithful_dtFetchReq : Faithful DtFetchReq depth where
  distinct := by decide
  bounded := by decide
  restores _ :=
    .single faithful_bytes rfl <| .single faithful_bytes rfl <|
    .single faithful_bytes rfl <| .optional faithful_uint32 rfl rfl <|
    .optional faithful_uint32 rfl rfl <| .optional faithful_bool rfl rfl <|
    .optional faithful_bool rfl rfl <| .optional faithful_uint32 rfl rfl <|
    .optional faithful_bool rfl rfl <| .optional faithful_uint32 rfl rfl <|
    .optional faithful_bool rfl rfl .done

theorem faithful_setOp : Faithful SetOp depth where
  distinct := by decide
  bounded := by decide
  restores _ :=
    .many faithful_bytes rfl (fun _ => rfl) (fun _ _ => rfl) <|
    .many faithful_bytes rfl (fun _ => rfl) (fun _ _ => rfl) .done

theorem faithful_dtOp : Faithful DtOp (depth + 1) where
  distinct := by decide
  bounded := by decide
  restores _ := .optional faithful_setOp.message rfl rfl .done

theorem faithful_dtUpdateReq : Faithful DtUpdateReq (depth + 2) where
  distinct := by decide
  bounded := by decide
  restores _ :=
    .single faithful_bytes rfl <| .optional faithful_bytes rfl rfl <|
    .single faithful_bytes rfl <| .optional faithful_bytes rfl rfl <|
    .single faithful_dtOp.message rfl <| .optional faithful_uint32 rfl rfl <|
    .optional faithful_uint32 rfl rfl <| .optional faithful_bool rfl rfl <|
    .optional faithful_uint32 rfl rfl <| .optional faithful_bool rfl rfl <|
    .optional faithful_uint32 rfl rfl .done

theorem faithful_counterUpdateReq : Faithful CounterUpdateReq depth where
  distinct := by decide
  bounded := by decide
  restores _ :=
    .single faithful_bytes rfl <| .single faithful_bytes rfl <|
    .single faithful_sint64 rfl <| .optional faithful_uint32 rfl rfl <|
    .optional faithful_uint32 rfl rfl <| .optional faithful_bool rfl rfl .done

theorem faithful_counterGetReq : Faithful CounterGetReq depth where
  distinct := by decide
  bounded := by decide
  restores _ :=
    .single faithful_bytes rfl <| .single faithful_bytes rfl <|
    .optional faithful_uint32 rfl rfl <| .optional faithful_uint32 rfl rfl <|
    .optional faithful_bool rfl rfl <| .optional faithful_bool rfl rfl .done

end Message

def RequestKind.names (kind : RequestKind) (payload : Bytes) :
    Except RecordFault (Bytes × Option Bytes) :=
  match kind with
  | .get => (Protobuf.Message.decode payload).map fun m : Message.GetReq => (m.bucket, some m.key)
  | .put => (Protobuf.Message.decode payload).map fun m : Message.PutReq => (m.bucket, m.key)
  | .delete =>
      (Protobuf.Message.decode payload).map fun m : Message.DelReq => (m.bucket, some m.key)
  | .setUpdate =>
      (Protobuf.Message.decode payload).map fun m : Message.DtUpdateReq => (m.bucket, m.key)
  | .setFetch =>
      (Protobuf.Message.decode payload).map fun m : Message.DtFetchReq => (m.bucket, some m.key)
  | .counterFetch =>
      (Protobuf.Message.decode payload).map fun m : Message.CounterGetReq => (m.bucket, some m.key)
  | .counterUpdate =>
      (Protobuf.Message.decode payload).map fun m : Message.CounterUpdateReq =>
        (m.bucket, some m.key)

structure Location where
  bucketType : Option Bytes
  bucket : Bytes
  name : Option Bytes
  deriving DecidableEq, Repr

def Location.resolve (location : Location) : Location :=
  { location with bucketType := some (location.bucketType.getD Key.defaultNamespace) }

def RequestKind.locates (kind : RequestKind) (payload : Bytes) : Except RecordFault Location :=
  match kind with
  | .get =>
      (Protobuf.Message.decode payload).map fun m : Message.GetReq =>
        ⟨m.bucketType, m.bucket, some m.key⟩
  | .put =>
      (Protobuf.Message.decode payload).map fun m : Message.PutReq =>
        ⟨m.bucketType, m.bucket, m.key⟩
  | .delete =>
      (Protobuf.Message.decode payload).map fun m : Message.DelReq =>
        ⟨m.bucketType, m.bucket, some m.key⟩
  | .setUpdate =>
      (Protobuf.Message.decode payload).map fun m : Message.DtUpdateReq =>
        ⟨some m.bucketType, m.bucket, m.key⟩
  | .setFetch =>
      (Protobuf.Message.decode payload).map fun m : Message.DtFetchReq =>
        ⟨some m.bucketType, m.bucket, some m.key⟩
  | .counterFetch =>
      (Protobuf.Message.decode payload).map fun m : Message.CounterGetReq =>
        ⟨none, m.bucket, some m.key⟩
  | .counterUpdate =>
      (Protobuf.Message.decode payload).map fun m : Message.CounterUpdateReq =>
        ⟨none, m.bucket, some m.key⟩

theorem RequestKind.names_of_locates {kind : RequestKind} {payload : Bytes} {location : Location}
    (h : kind.locates payload = .ok location) :
    kind.names payload = .ok (location.bucket, location.name) := by
  cases kind <;> obtain ⟨message, read, rfl⟩ := map_eq_ok h <;> exact congrArg (Except.map _) read

def RequestBody.bucketType? (key : Key) : RequestBody → Option Bytes
  | .get | .put .. | .delete => key.ns
  | .setUpdate bucketType .. | .setReplace bucketType .. | .setFetch bucketType => some bucketType
  | .counterFetch | .counterUpdate _ => none

namespace Request

variable {request : Request} {limit : Nat}

def location (request : Request) : Location :=
  ⟨request.body.bucketType? request.key, request.key.bucket, some request.key.name⟩

theorem locates_payload (short : request.payload.length < Protobuf.Varint.limit) :
    request.kind.locates request.payload = .ok request.location := by
  have shallow : ∀ {depth : Nat}, depth ≤ 2 → depth ≤ Protobuf.Message.maxDepth :=
    fun le => Nat.le_trans le (by decide)
  obtain ⟨key, q, body⟩ := request
  cases body with
  | get =>
      have read := Message.faithful_getReq.decode_encode (shallow (Nat.zero_le _)) short
      exact congrArg (Except.map _) read
  | put value contentType vclock =>
      have read := Message.faithful_putReq.decode_encode (@shallow (0 + 1) (by decide)) short
      exact congrArg (Except.map _) read
  | delete =>
      have read := Message.faithful_delReq.decode_encode (shallow (Nat.zero_le _)) short
      exact congrArg (Except.map _) read
  | setUpdate bucketType action members =>
      cases action with
      | add | remove =>
          have read := Message.faithful_dtUpdateReq.decode_encode
            (@shallow (0 + 2) (by decide)) short
          exact congrArg (Except.map _) read
  | setReplace bucketType adds removes context =>
      have read := Message.faithful_dtUpdateReq.decode_encode
        (@shallow (0 + 2) (by decide)) short
      exact congrArg (Except.map _) read
  | setFetch bucketType =>
      have read := Message.faithful_dtFetchReq.decode_encode (shallow (Nat.zero_le _)) short
      exact congrArg (Except.map _) read
  | counterFetch =>
      have read := Message.faithful_counterGetReq.decode_encode (shallow (Nat.zero_le _)) short
      exact congrArg (Except.map _) read
  | counterUpdate amount =>
      have read := Message.faithful_counterUpdateReq.decode_encode (shallow (Nat.zero_le _)) short
      exact congrArg (Except.map _) read

theorem names_payload (short : request.payload.length < Protobuf.Varint.limit) :
    request.kind.names request.payload = .ok (request.key.bucket, some request.key.name) :=
  RequestKind.names_of_locates (locates_payload short)

theorem checkSize_eq_ok (h : request.checkSize limit = .ok ()) :
    request.frame.size ≤ limit ∧ request.payload.length < Frame.maxLength := by
  unfold checkSize at h
  split at h
  · cases h
  · next fits => exact ⟨Nat.not_lt.mp (not_or.mp fits).1, Nat.not_le.mp (not_or.mp fits).2⟩

theorem decode_encode (short : request.payload.length < Frame.maxLength) :
    Frame.decode request.encode = .complete request.frame [] := by
  have alone := @Frame.decode_encode request.frame short []
  rwa [List.append_nil] at alone

end Request

structure Addressed (limit : Nat) (kind : RequestKind) (key : Key) (bytes : Bytes) (frame : Frame) :
    Prop where
  alone : Frame.decode bytes = .complete frame []
  size : frame.size = bytes.length
  le : bytes.length ≤ limit
  code : frame.code = kind.requestCode.byte
  names : kind.names frame.payload = .ok (key.bucket, some key.name)
  bucket : key.bucket ≠ []
  name : key.name ≠ []

theorem addressed_of_checkSize {request : Request} {limit : Nat}
    (fits : request.checkSize limit = .ok ()) (bucket : request.key.bucket ≠ [])
    (name : request.key.name ≠ []) :
    Addressed limit request.kind request.key request.encode request.frame := by
  obtain ⟨le, short⟩ := Request.checkSize_eq_ok fits
  have size : request.frame.size = request.encode.length := (Frame.length_encode _).symm
  refine ⟨Request.decode_encode short, size, size ▸ le, rfl, ?_, bucket, name⟩
  exact Request.names_payload (Nat.lt_trans short (by decide))

def Locates (kind : RequestKind) (bytes : Bytes) (location : Location) : Prop :=
  ∃ frame, Frame.decode bytes = .complete frame [] ∧ frame.code = kind.requestCode.byte ∧
    kind.locates frame.payload = .ok location

section Locates

variable {kind other : RequestKind} {bytes : Bytes} {location elsewhere : Location}

theorem RequestKind.eq_of_byte (same : kind.requestCode.byte = other.requestCode.byte) :
    kind = other := by
  revert same
  cases kind <;> cases other <;> decide

theorem Locates.unique (h : Locates kind bytes location) (h' : Locates other bytes elsewhere) :
    kind = other ∧ location = elsewhere := by
  obtain ⟨frame, read, code, located⟩ := h
  obtain ⟨frame', read', code', located'⟩ := h'
  cases read.symm.trans read'
  obtain rfl := RequestKind.eq_of_byte (code.symm.trans code')
  exact ⟨rfl, Except.ok.inj (located.symm.trans located')⟩

theorem locates_of_checkSize {request : Request} {limit : Nat}
    (fits : request.checkSize limit = .ok ()) :
    Locates request.kind request.encode request.location := by
  obtain ⟨-, short⟩ := Request.checkSize_eq_ok fits
  exact ⟨_, Request.decode_encode short, rfl,
    Request.locates_payload (Nat.lt_trans short (by decide))⟩

end Locates

end ReadThrough.Store
