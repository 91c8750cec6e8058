import ReadThrough.Proofs.Requests

namespace ReadThrough

namespace Protobuf

theorem Varint.size_le (n : Nat) : size n ≤ n + 1 := by
  fun_induction size n with
  | case1 n h => omega
  | case2 n h ih => omega

theorem int32_of_extended (n : Int32) :
    Int32.ofNat (n.toInt % 18446744073709551616).toNat = n := by
  have lower := n.le_toInt
  have upper := n.toInt_lt
  have size : (Int32.size : Int) = 4294967296 := rfl
  rw [← Int32.toInt_inj, Int32.toInt_ofNat', Int.toNat_of_nonneg (Int.emod_nonneg _ (by decide)),
    Int.bmod_def, size]
  omega

theorem extended_lt (n : Int32) : (n.toInt % 18446744073709551616).toNat < Varint.limit := by
  have lower : 0 ≤ n.toInt % 18446744073709551616 := Int.emod_nonneg _ (by decide)
  have upper : n.toInt % 18446744073709551616 < 18446744073709551616 :=
    Int.emod_lt_of_pos _ (by decide)
  unfold Varint.limit
  omega

theorem faithful_int32 {depth : Nat} : Codec.int32.Faithful depth :=
  faithful_number extended_lt int32_of_extended

namespace Message

variable {ρ : Type} [Message ρ] {depth : Nat} {record : ρ}

theorem Faithful.mergeDelimited (h : Faithful ρ depth) (le : depth + 1 ≤ maxDepth)
    (short : (encodeDelimited record).length < Varint.limit) (rest : Bytes) :
    Message.mergeDelimited maxDepth blank (encodeDelimited record ++ rest) = .ok (record, rest) :=
  h.message.merge le short rest

end Message

end Protobuf

namespace Store.Message

open Protobuf (faithful_bytes faithful_uint32 faithful_bool faithful_sint64 faithful_int32)
open Protobuf.Message (Faithful)

variable {depth : Nat}

theorem faithful_errorResp : Faithful ErrorResp depth where
  distinct := by decide
  bounded := by decide
  restores _ := .single faithful_bytes rfl <| .single faithful_uint32 rfl .done

theorem faithful_getResp : Faithful GetResp (depth + 1) where
  distinct := by decide
  bounded := by decide
  restores _ :=
    .many faithful_content.message rfl (fun _ => rfl) (fun _ _ => rfl) <|
    .optional faithful_bytes rfl rfl <| .optional faithful_bool rfl rfl .done

theorem faithful_putResp : Faithful PutResp (depth + 1) where
  distinct := by decide
  bounded := by decide
  restores _ :=
    .many faithful_content.message rfl (fun _ => rfl) (fun _ _ => rfl) <|
    .optional faithful_bytes rfl rfl <| .optional faithful_bytes rfl rfl .done

theorem faithful_dtValue : Faithful DtValue depth where
  distinct := by decide
  bounded := by decide
  restores _ :=
    .optional faithful_sint64 rfl rfl <|
    .many faithful_bytes rfl (fun _ => rfl) (fun _ _ => rfl) .done

theorem faithful_dtFetchResp : Faithful DtFetchResp (depth + 1) where
  distinct := by decide
  bounded := by decide
  restores _ :=
    .optional faithful_bytes rfl rfl <| .single faithful_int32 rfl <|
    .optional faithful_dtValue.message rfl rfl .done

theorem faithful_dtUpdateResp : Faithful DtUpdateResp depth where
  distinct := by decide
  bounded := by decide
  restores _ :=
    .optional faithful_bytes rfl rfl <| .optional faithful_bytes rfl rfl <|
    .optional faithful_sint64 rfl rfl <|
    .many faithful_bytes rfl (fun _ => rfl) (fun _ _ => rfl) .done

theorem faithful_counterResp : Faithful CounterResp depth where
  distinct := by decide
  bounded := by decide
  restores _ := .optional faithful_sint64 rfl rfl .done

inductive Kind where
  | errorResp
  | content
  | getReq
  | getResp
  | putReq
  | putResp
  | delReq
  | dtFetchReq
  | dtValue
  | dtFetchResp
  | setOp
  | dtOp
  | dtUpdateReq
  | dtUpdateResp
  | counterUpdateReq
  | counterGetReq
  | counterResp
  deriving DecidableEq, Repr

abbrev Kind.Record : Kind → Type
  | .errorResp => ErrorResp
  | .content => Content
  | .getReq => GetReq
  | .getResp => GetResp
  | .putReq => PutReq
  | .putResp => PutResp
  | .delReq => DelReq
  | .dtFetchReq => DtFetchReq
  | .dtValue => DtValue
  | .dtFetchResp => DtFetchResp
  | .setOp => SetOp
  | .dtOp => DtOp
  | .dtUpdateReq => DtUpdateReq
  | .dtUpdateResp => DtUpdateResp
  | .counterUpdateReq => CounterUpdateReq
  | .counterGetReq => CounterGetReq
  | .counterResp => CounterResp

instance (kind : Kind) : Protobuf.Message kind.Record :=
  match kind with
  | .errorResp => inferInstanceAs (Protobuf.Message ErrorResp)
  | .content => inferInstanceAs (Protobuf.Message Content)
  | .getReq => inferInstanceAs (Protobuf.Message GetReq)
  | .getResp => inferInstanceAs (Protobuf.Message GetResp)
  | .putReq => inferInstanceAs (Protobuf.Message PutReq)
  | .putResp => inferInstanceAs (Protobuf.Message PutResp)
  | .delReq => inferInstanceAs (Protobuf.Message DelReq)
  | .dtFetchReq => inferInstanceAs (Protobuf.Message DtFetchReq)
  | .dtValue => inferInstanceAs (Protobuf.Message DtValue)
  | .dtFetchResp => inferInstanceAs (Protobuf.Message DtFetchResp)
  | .setOp => inferInstanceAs (Protobuf.Message SetOp)
  | .dtOp => inferInstanceAs (Protobuf.Message DtOp)
  | .dtUpdateReq => inferInstanceAs (Protobuf.Message DtUpdateReq)
  | .dtUpdateResp => inferInstanceAs (Protobuf.Message DtUpdateResp)
  | .counterUpdateReq => inferInstanceAs (Protobuf.Message CounterUpdateReq)
  | .counterGetReq => inferInstanceAs (Protobuf.Message CounterGetReq)
  | .counterResp => inferInstanceAs (Protobuf.Message CounterResp)

theorem faithful_record (kind : Kind) : Faithful kind.Record 2 :=
  match kind with
  | .errorResp => faithful_errorResp
  | .content => faithful_content
  | .getReq => faithful_getReq
  | .getResp => faithful_getResp
  | .putReq => faithful_putReq
  | .putResp => faithful_putResp
  | .delReq => faithful_delReq
  | .dtFetchReq => faithful_dtFetchReq
  | .dtValue => faithful_dtValue
  | .dtFetchResp => faithful_dtFetchResp
  | .setOp => faithful_setOp
  | .dtOp => faithful_dtOp
  | .dtUpdateReq => faithful_dtUpdateReq
  | .dtUpdateResp => faithful_dtUpdateResp
  | .counterUpdateReq => faithful_counterUpdateReq
  | .counterGetReq => faithful_counterGetReq
  | .counterResp => faithful_counterResp

theorem length_encode_lt (kind : Kind) {record : kind.Record}
    (short : Protobuf.Message.size record < 2 ^ 63) :
    (Protobuf.Message.encode record).length < Protobuf.Varint.limit := by
  rw [(faithful_record kind).length_encode]
  exact Nat.lt_trans short (by decide)

theorem read_back (kind : Kind) (record : kind.Record)
    (short : Protobuf.Message.size record < 2 ^ 63) :
    Protobuf.Message.decode (Protobuf.Message.encode record) = .ok record ∧
      (∀ rest, Protobuf.Message.mergeDelimited Protobuf.Message.maxDepth Protobuf.Message.blank
        (Protobuf.Message.encodeDelimited record ++ rest) = .ok (record, rest)) ∧
      Protobuf.Message.size record = (Protobuf.Message.encode record).length := by
  have faithful := faithful_record kind
  have size := faithful.length_encode record
  have limit : Protobuf.Varint.limit = 2 ^ 63 + 2 ^ 63 := rfl
  have front := Protobuf.Varint.size_le (Protobuf.Message.size record)
  have delimited : (Protobuf.Message.encodeDelimited record).length =
      Protobuf.Varint.size (Protobuf.Message.size record) + Protobuf.Message.size record := by
    rw [Protobuf.Message.encodeDelimited, List.length_append, Protobuf.Varint.length_encode, size]
  exact ⟨faithful.decode_encode (by decide) (by omega),
    faithful.mergeDelimited (by decide) (by omega), size.symm⟩

theorem read_back_counter :
    let record : DtFetchResp := { dataType := -1, value := some { counterValue := some (-1) } }
    Protobuf.Message.size record < 2 ^ 63 ∧
      Protobuf.Message.decode (Protobuf.Message.encode record) = .ok record :=
  ⟨by decide +kernel, (read_back .dtFetchResp _ (by decide +kernel)).1⟩

end Store.Message

end ReadThrough
