import ReadThrough.Proofs.Messages
import ReadThrough.Proofs.Utf8
import ReadThrough.Store.Response

namespace ReadThrough.Store.Response

inductive Answers : RequestKind → Response → Prop where
  | found {siblings : List Sibling} {vclock : Option Bytes} : Answers .get (.found siblings vclock)
  | putAck {vclock : Option Bytes} : Answers .put (.putAck vclock)
  | deleteAck : Answers .delete .deleteAck
  | updateAck : Answers .setUpdate .updateAck
  | set {members : List Bytes} {context : Option Bytes} : members.Nodup →
      Answers .setFetch (.set members context)
  | counterRead {value : Int64} : Answers .counterFetch (.counter value)
  | counter {value : Int64} : Answers .counterUpdate (.counter value)
  | error {kind : RequestKind} {message : String} {code : UInt32} :
      Answers kind (.error message code)

theorem siblingOf_contentOf (sibling : Sibling) : siblingOf (contentOf sibling) = sibling := by
  obtain ⟨value, contentType, lastModified, deleted⟩ := sibling
  cases lastModified <;> cases deleted <;> rfl

variable {kind : RequestKind} {response : Response}

theorem record_encode {ρ : Type} [Protobuf.Message ρ] {depth : Nat} {message : ρ}
    (faithful : Protobuf.Message.Faithful ρ depth) (le : depth ≤ Protobuf.Message.maxDepth)
    (short : (Protobuf.Message.encode message).length < Frame.maxLength) :
    record (Protobuf.Message.encode message) = .ok message := by
  rw [record, faithful.decode_encode le (Nat.lt_trans short (by decide))]

theorem decode_awaited (kind : RequestKind) (payload : Bytes) :
    decode kind.responseCode.byte payload kind = decodeAwaited kind payload := by
  have answer : kind.responseCode ≠ .errorResp := by cases kind <;> decide
  rw [decode, Code.ofByte?_byte]
  dsimp only
  rw [if_neg answer, if_neg (not_not_intro rfl)]

theorem error_ne_nil (message : Message.ErrorResp) : Protobuf.Message.encode message ≠ [] := by
  have filled : ∀ n, Protobuf.Varint.encode n ≠ [] := by
    intro n
    rw [Protobuf.Varint.encode]
    split <;> exact List.cons_ne_nil _ _
  intro nothing
  obtain ⟨first, -⟩ := List.append_eq_nil_iff.mp nothing
  obtain ⟨key, -⟩ := List.append_eq_nil_iff.mp first
  exact filled _ key

theorem decode_frame (answers : Answers kind response)
    (short : (response.frame kind).payload.length < Frame.maxLength) :
    decode (response.frame kind).code (response.frame kind).payload kind = .ok response := by
  cases answers with
  | @found siblings vclock =>
      have read := record_encode (@Message.faithful_getResp 0) (by decide) short
      have same : (siblings.map contentOf).map siblingOf = siblings := by
        rw [List.map_map]
        exact (List.map_congr_left fun s _ => siblingOf_contentOf s).trans (List.map_id siblings)
      refine (decode_awaited .get _).trans ((congrArg (Except.map ofGet) read).trans ?_)
      exact congrArg (fun siblings => Except.ok (Response.found siblings vclock)) same
  | @putAck vclock =>
      have read := record_encode (@Message.faithful_putResp 0) (by decide) short
      exact (decode_awaited .put _).trans (congrArg (Except.map ofPut) read)
  | deleteAck => exact decode_awaited .delete _
  | updateAck =>
      have read : record (ρ := Message.DtUpdateResp) [] = .ok {} := by decide +kernel
      exact (decode_awaited .setUpdate _).trans (congrArg (Except.map fun _ => updateAck) read)
  | @set members context nodup =>
      have read := record_encode (@Message.faithful_dtFetchResp 0) (by decide) short
      refine (decode_awaited .setFetch _).trans ((congrArg (Except.bind · ofSet) read).trans ?_)
      exact congrArg (fun members => Except.ok (Response.set members context))
        (Members.distinct_of_nodup nodup)
  | counterRead =>
      have read := record_encode (@Message.faithful_counterResp 0) (by decide) short
      exact (decode_awaited .counterFetch _).trans (congrArg (Except.map ofCounter) read)
  | counter =>
      have read := record_encode (@Message.faithful_counterResp 0) (by decide) short
      exact (decode_awaited .counterUpdate _).trans (congrArg (Except.map ofCounter) read)
  | @error _ message code =>
      have read := record_encode (@Message.faithful_errorResp 0) (by decide) short
      have filled := List.isEmpty_eq_false_iff.mpr (error_ne_nil ⟨Text.utf8 message, code⟩)
      change (if (Protobuf.Message.encode (⟨_, code⟩ : Message.ErrorResp)).isEmpty && kind.hasBareAck
        then _ else (record (Protobuf.Message.encode _)).map ofError) = _
      rw [filled, Bool.false_and, if_neg Bool.false_ne_true, read]
      exact congrArg (fun text => Except.ok (Response.error text code)) (Text.lossy_utf8 message)

theorem understood (answers : Answers kind response)
    (short : (response.frame kind).payload.length < Frame.maxLength) (rest : Bytes) :
    Frame.decode ((response.frame kind).encode ++ rest) = .complete (response.frame kind) rest ∧
      decode (response.frame kind).code (response.frame kind).payload kind = .ok response :=
  ⟨Frame.decode_encode short rest, decode_frame answers short⟩

theorem understood_set :
    let response := set [[104, 105], []] (some [])
    Frame.decode ((response.frame .setFetch).encode ++ [0, 0]) =
        .complete (response.frame .setFetch) [0, 0] ∧
      decode (response.frame .setFetch).code (response.frame .setFetch).payload .setFetch =
        .ok response :=
  understood (.set (by decide)) (by decide +kernel) [0, 0]

example : decode ((error "" 0).frame .put).code ((error "" 0).frame .put).payload .put =
    .ok (error "" 0) := by decide +kernel

end ReadThrough.Store.Response
