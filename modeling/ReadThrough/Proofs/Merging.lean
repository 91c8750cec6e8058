import ReadThrough.Proofs.Messages

namespace ReadThrough

namespace Protobuf

section Codecs

variable {α : Type} {codec : Codec α} {depth : Nat}

def Codec.Replaces (codec : Codec α) (depth : Nat) : Prop :=
  ∀ old value, codec.Merges depth old value value

theorem Codec.Faithful.replaces (h : codec.Faithful depth)
    (blind : ∀ budget old, codec.merge budget old = codec.merge budget codec.blank) :
    codec.Replaces depth := by
  intro old value budget le short rest
  rw [blind]
  exact h.merge le short rest

theorem replaces_bytes : Codec.bytes.Replaces depth :=
  faithful_bytes.replaces fun _ _ => rfl

theorem replaces_uint32 : Codec.uint32.Replaces depth :=
  faithful_uint32.replaces fun _ _ => rfl

theorem replaces_int32 : Codec.int32.Replaces depth :=
  faithful_int32.replaces fun _ _ => rfl

theorem replaces_sint64 : Codec.sint64.Replaces depth :=
  faithful_sint64.replaces fun _ _ => rfl

theorem replaces_bool : Codec.bool.Replaces depth :=
  faithful_bool.replaces fun _ _ => rfl

end Codecs

namespace Message

section Fields

variable {ρ α : Type} {depth number : Nat} {record before after : ρ} {codec : Codec α}
  {get : ρ → Option α} {put : ρ → Option α → ρ} {fields : List (Field ρ)}

theorem Joins.later (replaces : codec.Replaces depth) (same : put before (get before) = before)
    (others : Joins depth record (put before ((get record).or (get before))) fields after) :
    Joins depth record before (.optional number codec get put :: fields) after := by
  cases held : get record with
  | none =>
      rw [held, Option.none_or, same] at others
      exact .absent held others
  | some value =>
      rw [held, Option.some_or] at others
      exact .present held (replaces _ _) others

theorem Joins.nested {join : α → α → α}
    (merges : ∀ old value, codec.Merges depth old value (join old value))
    (first : ∀ value, join codec.blank value = value) (same : put before (get before) = before)
    (others : Joins depth record (put before (Option.merge join (get before) (get record))) fields
      after) : Joins depth record before (.optional number codec get put :: fields) after := by
  cases held : get record with
  | none =>
      rw [held, Option.merge_none_right, same] at others
      exact .absent held others
  | some value =>
      refine .present held (merges _ _) ?_
      cases old : get before with
      | none =>
          rw [held, old] at others
          rw [Option.getD_none, first]
          exact others
      | some older =>
          rw [held, old] at others
          exact others

end Fields

variable {ρ : Type} [Message ρ] {depth : Nat} {merged : ρ → ρ → ρ}

structure Merging (ρ : Type) [Message ρ] (depth : Nat) (merged : ρ → ρ → ρ) : Prop where
  faithful : Faithful ρ depth
  joins : ∀ old record : ρ, Joins depth record old fields (merged old record)

namespace Merging

variable {budget behind : Nat} {rest : Bytes} {record : ρ}

theorem mergeUntil (h : Merging ρ depth merged) (le : depth ≤ budget)
    (short : (encode record).length < Varint.limit) (enough : behind ≤ rest.length) (old : ρ) :
    Message.mergeUntil behind budget old (encode record ++ rest) =
      Message.mergeUntil behind budget (merged old record) rest :=
  (h.joins old record).mergeUntil h.faithful.known le short enough

theorem message (h : Merging ρ depth merged) (old record : ρ) :
    (Codec.message : Codec ρ).Merges (depth + 1) old record (merged old record) := by
  intro budget le short rest
  have length := h.faithful.length_encode record
  have short : (Varint.encode (size record) ++ encode record).length < Varint.limit := short
  rw [List.length_append] at short
  change mergeDelimited budget old ((Varint.encode (size record) ++ encode record) ++ rest) = _
  rw [List.append_assoc, mergeDelimited, if_neg (by omega), Varint.decode_encode (by omega)]
  dsimp only
  rw [List.length_append, length, if_neg (by omega), Nat.add_sub_cancel_left,
    h.mergeUntil (by omega) (by omega) (Nat.le_refl _)]
  exact mergeUntil_done (budget - 1) (merged old record) rest

theorem decode_append (h : Merging ρ depth merged) (le : depth ≤ maxDepth) {first second : ρ}
    (short : (encode first).length < Varint.limit) (short' : (encode second).length < Varint.limit) :
    decode (encode first ++ encode second) = .ok (merged first second) := by
  have one : Message.mergeUntil 0 maxDepth blank (encode first ++ encode second) =
      Message.mergeUntil 0 maxDepth first (encode second) :=
    (h.faithful.restores first).joins.mergeUntil h.faithful.known le short (Nat.zero_le _)
  have two := h.mergeUntil le short' (Nat.zero_le ([] : Bytes).length) first
  have done : Message.mergeUntil 0 maxDepth (merged first second) [] =
      .ok (merged first second, []) :=
    mergeUntil_done maxDepth (merged first second) []
  rw [List.append_nil] at two
  rw [decode, merge, one, two, done]
  rfl

end Merging

end Message

end Protobuf

namespace Store.Message

open Protobuf
open Protobuf.Message (Joins Merging)

variable {depth : Nat}

def ErrorResp.merged (_ new : ErrorResp) : ErrorResp where
  message := new.message
  code := new.code

def Content.merged (old new : Content) : Content where
  value := new.value
  contentType := new.contentType.or old.contentType
  charset := new.charset.or old.charset
  contentEncoding := new.contentEncoding.or old.contentEncoding
  vtag := new.vtag.or old.vtag
  lastMod := new.lastMod.or old.lastMod
  lastModUsecs := new.lastModUsecs.or old.lastModUsecs
  deleted := new.deleted.or old.deleted

def GetReq.merged (old new : GetReq) : GetReq where
  bucket := new.bucket
  key := new.key
  r := new.r.or old.r
  pr := new.pr.or old.pr
  basicQuorum := new.basicQuorum.or old.basicQuorum
  notFoundOk := new.notFoundOk.or old.notFoundOk
  deletedVclock := new.deletedVclock.or old.deletedVclock
  timeout := new.timeout.or old.timeout
  sloppyQuorum := new.sloppyQuorum.or old.sloppyQuorum
  nVal := new.nVal.or old.nVal
  bucketType := new.bucketType.or old.bucketType

def GetResp.merged (old new : GetResp) : GetResp where
  content := old.content ++ new.content
  vclock := new.vclock.or old.vclock
  unchanged := new.unchanged.or old.unchanged

def PutReq.merged (old new : PutReq) : PutReq where
  bucket := new.bucket
  key := new.key.or old.key
  vclock := new.vclock.or old.vclock
  content := old.content.merged new.content
  w := new.w.or old.w
  returnBody := new.returnBody.or old.returnBody
  pw := new.pw.or old.pw
  timeout := new.timeout.or old.timeout
  sloppyQuorum := new.sloppyQuorum.or old.sloppyQuorum
  nVal := new.nVal.or old.nVal
  bucketType := new.bucketType.or old.bucketType

def PutResp.merged (old new : PutResp) : PutResp where
  content := old.content ++ new.content
  vclock := new.vclock.or old.vclock
  key := new.key.or old.key

def DelReq.merged (old new : DelReq) : DelReq where
  bucket := new.bucket
  key := new.key
  vclock := new.vclock.or old.vclock
  w := new.w.or old.w
  pw := new.pw.or old.pw
  timeout := new.timeout.or old.timeout
  sloppyQuorum := new.sloppyQuorum.or old.sloppyQuorum
  nVal := new.nVal.or old.nVal
  bucketType := new.bucketType.or old.bucketType

def DtFetchReq.merged (old new : DtFetchReq) : DtFetchReq where
  bucket := new.bucket
  key := new.key
  bucketType := new.bucketType
  r := new.r.or old.r
  pr := new.pr.or old.pr
  basicQuorum := new.basicQuorum.or old.basicQuorum
  notFoundOk := new.notFoundOk.or old.notFoundOk
  timeout := new.timeout.or old.timeout
  sloppyQuorum := new.sloppyQuorum.or old.sloppyQuorum
  nVal := new.nVal.or old.nVal
  includeContext := new.includeContext.or old.includeContext

def DtValue.merged (old new : DtValue) : DtValue where
  counterValue := new.counterValue.or old.counterValue
  setValue := old.setValue ++ new.setValue

def DtFetchResp.merged (old new : DtFetchResp) : DtFetchResp where
  context := new.context.or old.context
  dataType := new.dataType
  value := Option.merge DtValue.merged old.value new.value

def SetOp.merged (old new : SetOp) : SetOp where
  adds := old.adds ++ new.adds
  removes := old.removes ++ new.removes

def DtOp.merged (old new : DtOp) : DtOp where
  setOp := Option.merge SetOp.merged old.setOp new.setOp

def DtUpdateReq.merged (old new : DtUpdateReq) : DtUpdateReq where
  bucket := new.bucket
  key := new.key.or old.key
  bucketType := new.bucketType
  context := new.context.or old.context
  op := old.op.merged new.op
  w := new.w.or old.w
  pw := new.pw.or old.pw
  returnBody := new.returnBody.or old.returnBody
  timeout := new.timeout.or old.timeout
  sloppyQuorum := new.sloppyQuorum.or old.sloppyQuorum
  nVal := new.nVal.or old.nVal

def DtUpdateResp.merged (old new : DtUpdateResp) : DtUpdateResp where
  key := new.key.or old.key
  context := new.context.or old.context
  counterValue := new.counterValue.or old.counterValue
  setValue := old.setValue ++ new.setValue

def CounterUpdateReq.merged (old new : CounterUpdateReq) : CounterUpdateReq where
  bucket := new.bucket
  key := new.key
  amount := new.amount
  w := new.w.or old.w
  pw := new.pw.or old.pw
  returnValue := new.returnValue.or old.returnValue

def CounterGetReq.merged (old new : CounterGetReq) : CounterGetReq where
  bucket := new.bucket
  key := new.key
  r := new.r.or old.r
  pr := new.pr.or old.pr
  basicQuorum := new.basicQuorum.or old.basicQuorum
  notFoundOk := new.notFoundOk.or old.notFoundOk

def CounterResp.merged (old new : CounterResp) : CounterResp where
  value := new.value.or old.value

theorem merging_errorResp : Merging ErrorResp depth ErrorResp.merged where
  faithful := faithful_errorResp
  joins _ _ := .single (replaces_bytes _ _) <| .single (replaces_uint32 _ _) .done

theorem merging_content : Merging Content depth Content.merged where
  faithful := faithful_content
  joins _ _ :=
    .single (replaces_bytes _ _) <| .later replaces_bytes rfl <|
    .later replaces_bytes rfl <| .later replaces_bytes rfl <|
    .later replaces_bytes rfl <| .later replaces_uint32 rfl <|
    .later replaces_uint32 rfl <| .later replaces_bool rfl .done

theorem merging_getReq : Merging GetReq depth GetReq.merged where
  faithful := faithful_getReq
  joins _ _ :=
    .single (replaces_bytes _ _) <| .single (replaces_bytes _ _) <|
    .later replaces_uint32 rfl <| .later replaces_uint32 rfl <|
    .later replaces_bool rfl <| .later replaces_bool rfl <|
    .later replaces_bool rfl <| .later replaces_uint32 rfl <|
    .later replaces_bool rfl <| .later replaces_uint32 rfl <|
    .later replaces_bytes rfl .done

theorem merging_getResp : Merging GetResp (depth + 1) GetResp.merged where
  faithful := faithful_getResp
  joins _ _ :=
    .many faithful_content.message rfl (fun _ => rfl) (fun _ _ => rfl) <|
    .later replaces_bytes rfl <| .later replaces_bool rfl .done

theorem merging_putReq : Merging PutReq (depth + 1) PutReq.merged where
  faithful := faithful_putReq
  joins _ _ :=
    .single (replaces_bytes _ _) <| .later replaces_bytes rfl <|
    .later replaces_bytes rfl <| .single (merging_content.message _ _) <|
    .later replaces_uint32 rfl <| .later replaces_bool rfl <|
    .later replaces_uint32 rfl <| .later replaces_uint32 rfl <|
    .later replaces_bool rfl <| .later replaces_uint32 rfl <|
    .later replaces_bytes rfl .done

theorem merging_putResp : Merging PutResp (depth + 1) PutResp.merged where
  faithful := faithful_putResp
  joins _ _ :=
    .many faithful_content.message rfl (fun _ => rfl) (fun _ _ => rfl) <|
    .later replaces_bytes rfl <| .later replaces_bytes rfl .done

theorem merging_delReq : Merging DelReq depth DelReq.merged where
  faithful := faithful_delReq
  joins _ _ :=
    .single (replaces_bytes _ _) <| .single (replaces_bytes _ _) <|
    .later replaces_bytes rfl <| .later replaces_uint32 rfl <|
    .later replaces_uint32 rfl <| .later replaces_uint32 rfl <|
    .later replaces_bool rfl <| .later replaces_uint32 rfl <|
    .later replaces_bytes rfl .done

theorem merging_dtFetchReq : Merging DtFetchReq depth DtFetchReq.merged where
  faithful := faithful_dtFetchReq
  joins _ _ :=
    .single (replaces_bytes _ _) <| .single (replaces_bytes _ _) <|
    .single (replaces_bytes _ _) <| .later replaces_uint32 rfl <|
    .later replaces_uint32 rfl <| .later replaces_bool rfl <|
    .later replaces_bool rfl <| .later replaces_uint32 rfl <|
    .later replaces_bool rfl <| .later replaces_uint32 rfl <|
    .later replaces_bool rfl .done

theorem merging_dtValue : Merging DtValue depth DtValue.merged where
  faithful := faithful_dtValue
  joins _ _ :=
    .later replaces_sint64 rfl <|
    .many faithful_bytes rfl (fun _ => rfl) (fun _ _ => rfl) .done

theorem DtValue.merged_blank (value : DtValue) : DtValue.merged {} value = value := by
  simp [DtValue.merged]

theorem merging_dtFetchResp : Merging DtFetchResp (depth + 1) DtFetchResp.merged where
  faithful := faithful_dtFetchResp
  joins _ _ :=
    .later replaces_bytes rfl <| .single (replaces_int32 _ _) <|
    .nested merging_dtValue.message DtValue.merged_blank rfl .done

theorem merging_setOp : Merging SetOp depth SetOp.merged where
  faithful := faithful_setOp
  joins _ _ :=
    .many faithful_bytes rfl (fun _ => rfl) (fun _ _ => rfl) <|
    .many faithful_bytes rfl (fun _ => rfl) (fun _ _ => rfl) .done

theorem SetOp.merged_blank (op : SetOp) : SetOp.merged {} op = op := by
  simp [SetOp.merged]

theorem merging_dtOp : Merging DtOp (depth + 1) DtOp.merged where
  faithful := faithful_dtOp
  joins _ _ := .nested merging_setOp.message SetOp.merged_blank rfl .done

theorem merging_dtUpdateReq : Merging DtUpdateReq (depth + 2) DtUpdateReq.merged where
  faithful := faithful_dtUpdateReq
  joins _ _ :=
    .single (replaces_bytes _ _) <| .later replaces_bytes rfl <|
    .single (replaces_bytes _ _) <| .later replaces_bytes rfl <|
    .single (merging_dtOp.message _ _) <| .later replaces_uint32 rfl <|
    .later replaces_uint32 rfl <| .later replaces_bool rfl <|
    .later replaces_uint32 rfl <| .later replaces_bool rfl <|
    .later replaces_uint32 rfl .done

theorem merging_dtUpdateResp : Merging DtUpdateResp depth DtUpdateResp.merged where
  faithful := faithful_dtUpdateResp
  joins _ _ :=
    .later replaces_bytes rfl <| .later replaces_bytes rfl <|
    .later replaces_sint64 rfl <|
    .many faithful_bytes rfl (fun _ => rfl) (fun _ _ => rfl) .done

theorem merging_counterUpdateReq : Merging CounterUpdateReq depth CounterUpdateReq.merged where
  faithful := faithful_counterUpdateReq
  joins _ _ :=
    .single (replaces_bytes _ _) <| .single (replaces_bytes _ _) <|
    .single (replaces_sint64 _ _) <| .later replaces_uint32 rfl <|
    .later replaces_uint32 rfl <| .later replaces_bool rfl .done

theorem merging_counterGetReq : Merging CounterGetReq depth CounterGetReq.merged where
  faithful := faithful_counterGetReq
  joins _ _ :=
    .single (replaces_bytes _ _) <| .single (replaces_bytes _ _) <|
    .later replaces_uint32 rfl <| .later replaces_uint32 rfl <|
    .later replaces_bool rfl <| .later replaces_bool rfl .done

theorem merging_counterResp : Merging CounterResp depth CounterResp.merged where
  faithful := faithful_counterResp
  joins _ _ := .later replaces_sint64 rfl .done

def Kind.merged : (kind : Kind) → kind.Record → kind.Record → kind.Record
  | .errorResp => ErrorResp.merged
  | .content => Content.merged
  | .getReq => GetReq.merged
  | .getResp => GetResp.merged
  | .putReq => PutReq.merged
  | .putResp => PutResp.merged
  | .delReq => DelReq.merged
  | .dtFetchReq => DtFetchReq.merged
  | .dtValue => DtValue.merged
  | .dtFetchResp => DtFetchResp.merged
  | .setOp => SetOp.merged
  | .dtOp => DtOp.merged
  | .dtUpdateReq => DtUpdateReq.merged
  | .dtUpdateResp => DtUpdateResp.merged
  | .counterUpdateReq => CounterUpdateReq.merged
  | .counterGetReq => CounterGetReq.merged
  | .counterResp => CounterResp.merged

theorem merging_record (kind : Kind) : Merging kind.Record 2 kind.merged :=
  match kind with
  | .errorResp => merging_errorResp
  | .content => merging_content
  | .getReq => merging_getReq
  | .getResp => merging_getResp
  | .putReq => merging_putReq
  | .putResp => merging_putResp
  | .delReq => merging_delReq
  | .dtFetchReq => merging_dtFetchReq
  | .dtValue => merging_dtValue
  | .dtFetchResp => merging_dtFetchResp
  | .setOp => merging_setOp
  | .dtOp => merging_dtOp
  | .dtUpdateReq => merging_dtUpdateReq
  | .dtUpdateResp => merging_dtUpdateResp
  | .counterUpdateReq => merging_counterUpdateReq
  | .counterGetReq => merging_counterGetReq
  | .counterResp => merging_counterResp

theorem read_together (kind : Kind) (first second : kind.Record)
    (short : Protobuf.Message.size first < 2 ^ 63)
    (short' : Protobuf.Message.size second < 2 ^ 63) :
    Protobuf.Message.decode (Protobuf.Message.encode first ++ Protobuf.Message.encode second) =
      .ok (kind.merged first second) :=
  (merging_record kind).decode_append (by decide) (length_encode_lt kind short)
    (length_encode_lt kind short')

theorem read_together_update :
    let first : DtUpdateReq :=
      { key := some [], context := some [1], op := { setOp := some { adds := [[2]] } } }
    let second : DtUpdateReq :=
      { bucket := [3], op := { setOp := some { adds := [[4]], removes := [[2]] } } }
    Protobuf.Message.size first < 2 ^ 63 ∧ Protobuf.Message.size second < 2 ^ 63 ∧
      Protobuf.Message.decode (Protobuf.Message.encode first ++ Protobuf.Message.encode second) =
        .ok ({ bucket := [3], key := some [], context := some [1]
               op := { setOp := some { adds := [[2], [4]], removes := [[2]] } } } : DtUpdateReq) :=
  ⟨by decide +kernel, by decide +kernel,
    read_together .dtUpdateReq _ _ (by decide +kernel) (by decide +kernel)⟩

end Store.Message

end ReadThrough
