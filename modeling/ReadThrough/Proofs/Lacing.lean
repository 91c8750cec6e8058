import ReadThrough.Proofs.Messages
import ReadThrough.Proofs.Skipping

namespace ReadThrough

namespace Protobuf

structure Codec.Scalar {α : Type} (codec : Codec α) : Prop where
  plain : ∀ {value}, (codec.encode value).length < Varint.limit →
    Plain codec.wire (codec.encode value)
  reads : ∀ {bytes}, Plain codec.wire bytes → ∃ value, ∀ budget old rest,
    codec.merge budget old (bytes ++ rest) = .ok (value, rest)

section Codecs

variable {α : Type}

theorem scalar_number {blank : α} {toNat : α → Nat} {ofNat : Nat → α}
    (fits : ∀ value, toNat value < Varint.limit) : (Codec.number blank toNat ofNat).Scalar where
  plain _ := .varint (Varint.spelling_encode (fits _))
  reads {bytes} plain := by
    have plain : Plain .varint bytes := plain
    cases plain with
    | @varint n _ spelled =>
        refine ⟨ofNat n, fun _ _ rest => ?_⟩
        change (Varint.decode (bytes ++ rest)).map _ = _
        rw [spelled.decode]
        rfl

theorem scalar_uint32 : Codec.uint32.Scalar :=
  scalar_number uint32_lt

theorem scalar_int32 : Codec.int32.Scalar :=
  scalar_number extended_lt

theorem scalar_sint64 : Codec.sint64.Scalar :=
  scalar_number zigzag_lt

theorem scalar_bool : Codec.bool.Scalar :=
  scalar_number bool_lt

theorem scalar_bytes : Codec.bytes.Scalar where
  plain {value} short := by
    have short : (Varint.encode value.length ++ value).length < Varint.limit := short
    rw [List.length_append] at short
    exact .lengthDelimited (Varint.spelling_encode (by omega))
  reads {bytes} plain := by
    have plain : Plain .lengthDelimited bytes := plain
    cases plain with
    | @lengthDelimited front body spelled => exact ⟨body, fun _ _ => readDelimited_append spelled⟩

theorem Codec.Scalar.mergeInto {ρ : Type} {codec : Codec α} (scalar : codec.Scalar) {budget : Nat}
    {wire : WireType} {old : α} {put : α → ρ} {bytes rest rest' : Bytes} {merged : ρ}
    (plain : Plain wire bytes)
    (h : codec.mergeInto budget wire old put (bytes ++ rest) = .ok (merged, rest')) :
    rest' = rest ∧
      ∀ more, codec.mergeInto budget wire old put (bytes ++ more) = .ok (merged, more) := by
  unfold Codec.mergeInto at h ⊢
  split at h
  · cases h
  · next same =>
      obtain rfl := not_not.mp same
      obtain ⟨value, read⟩ := scalar.reads plain
      rw [read] at h
      cases h
      refine ⟨rfl, fun more => ?_⟩
      rw [if_neg same, read]
      rfl

end Codecs

def Field.Scalar {ρ : Type} (field : Field ρ) : Prop :=
  ∀ {budget wire old bytes rest merged rest'}, Plain wire bytes →
    field.merge budget wire old (bytes ++ rest) = .ok (merged, rest') →
    rest' = rest ∧ ∀ more, field.merge budget wire old (bytes ++ more) = .ok (merged, more)

section Shapes

variable {ρ α : Type} {number : Nat} {codec : Codec α}

theorem Field.scalar_single {get : ρ → α} {put : ρ → α → ρ} (h : codec.Scalar) :
    (Field.single number codec get put).Scalar :=
  fun plain read => h.mergeInto plain read

theorem Field.scalar_optional {get : ρ → Option α} {put : ρ → Option α → ρ} (h : codec.Scalar) :
    (Field.optional number codec get put).Scalar := by
  intro budget wire old bytes rest merged rest' plain read
  change codec.mergeInto budget wire _ (fun v => put old (some v)) _ = _ at read
  exact h.mergeInto plain read

theorem Field.scalar_many {get : ρ → List α} {put : ρ → List α → ρ} (h : codec.Scalar) :
    (Field.many number codec get put).Scalar := by
  intro budget wire old bytes rest merged rest' plain read
  change codec.mergeInto budget wire _ (fun v => put old (get old ++ [v])) _ = _ at read
  exact h.mergeInto plain read

end Shapes

def Field.Nests {ρ : Type} (inner : Type) [Message inner] (field : Field ρ) : Prop :=
  ∀ old, ∃ (start : inner) (put : inner → ρ), ∀ budget bytes,
    field.merge budget .lengthDelimited old bytes =
      (Message.mergeDelimited budget start bytes).map fun (value, rest) => (put value, rest)

namespace Message

variable {ρ : Type} [Message ρ] {behind budget number : Nat} {wire : WireType} {record merged : ρ}
  {bytes rest rest' length body : Bytes}

theorem mergeUntil_eq_ok (filled : behind < bytes.length)
    (hk : readKey bytes = .ok (number, wire, rest))
    (h : mergeUntil behind budget record bytes = .ok (merged, rest')) :
    ∃ between after, mergeField budget number wire record rest = .ok (between, after) ∧
      mergeUntil behind budget between after = .ok (merged, rest') := by
  cases hm : mergeField budget number wire record rest with
  | error fault =>
      have more : (bytes.drop behind).isEmpty = false := by
        rw [List.isEmpty_eq_false_iff]
        exact fun nothing => absurd (List.drop_eq_nil_iff.mp nothing) (Nat.not_le.mpr filled)
      rw [mergeUntil, more, if_neg Bool.false_ne_true] at h
      split at h
      · cases h
      · next hk' =>
          rw [hk] at hk'
          cases hk'
          split at h
          · cases h
          · next hm' =>
              rw [hm] at hm'
              cases hm'
  | ok p => exact ⟨p.1, p.2, rfl, (mergeUntil_field filled hk hm) ▸ h⟩

theorem mergeDelimited_append (h : Varint.Spelling body.length length) :
    mergeDelimited (budget + 1) record (length ++ body ++ rest) =
      mergeUntil rest.length budget record (body ++ rest) := by
  rw [mergeDelimited, if_neg (Nat.succ_ne_zero budget), List.append_assoc, h.decode]
  dsimp only
  rw [List.length_append, if_neg (by omega), Nat.add_sub_cancel_left, Nat.add_sub_cancel]

def ReadAlike (ρ : Type) [Message ρ] (budget : Nat) (bytes laced : Bytes) : Prop :=
  ∀ (before after : ρ) (rest rest' : Bytes),
    mergeUntil rest.length budget before (bytes ++ rest) = .ok (after, rest') →
    rest' = rest ∧ ∀ more, mergeUntil more.length budget before (laced ++ more) = .ok (after, more)

namespace ReadAlike

variable {depth : Nat} {front value value' laced field : Bytes}

theorem nil : ReadAlike ρ budget [] [] := by
  intro before after rest rest' read
  have read := (mergeUntil_done _ before rest).symm.trans read
  cases read
  exact ⟨rfl, mergeUntil_done _ _⟩

theorem unknown (alike : ReadAlike ρ budget bytes laced) (whole : Whole number depth field)
    (le : depth ≤ budget) (unknown : number ∉ (fields (ρ := ρ)).map (·.number)) :
    ReadAlike ρ budget bytes (field ++ laced) := by
  intro before after rest rest' read
  obtain ⟨same, later⟩ := alike _ _ _ _ read
  refine ⟨same, fun more => ?_⟩
  rw [List.append_assoc, mergeUntil_unknown whole le unknown (by simp)]
  exact later more

theorem keyed (alike : ReadAlike ρ budget bytes laced) (key : KeySpelling number wire front)
    (values : ∀ {before between : ρ} {rest rest'},
      mergeField budget number wire before (value ++ rest) = .ok (between, rest') →
      rest' = rest ∧ ∀ more,
        mergeField budget number wire before (value' ++ more) = .ok (between, more)) :
    ReadAlike ρ budget (front ++ (value ++ bytes)) (front ++ (value' ++ laced)) := by
  have filled : ∀ value bytes rest : Bytes,
      rest.length < (front ++ (value ++ (bytes ++ rest))).length := by
    intro value bytes rest
    have shorter := readKey_shorter (key.readKey (value ++ (bytes ++ rest)))
    rw [List.length_append, List.length_append] at shorter
    omega
  intro before after rest rest' read
  rw [List.append_assoc, List.append_assoc] at read
  obtain ⟨between, behind, taken, later⟩ :=
    mergeUntil_eq_ok (filled value bytes rest) (key.readKey _) read
  obtain ⟨rfl, again⟩ := values taken
  obtain ⟨same, later⟩ := alike _ _ _ _ later
  refine ⟨same, fun more => ?_⟩
  rw [List.append_assoc, List.append_assoc,
    mergeUntil_field (filled value' laced more) (key.readKey _) (again _)]
  exact later more

end ReadAlike

theorem mergeDelimited_alike {body' length' : Bytes} (alike : ReadAlike ρ budget body body')
    (spelled : Varint.Spelling body.length length) (spelled' : Varint.Spelling body'.length length')
    (read : mergeDelimited (budget + 1) record (length ++ body ++ rest) = .ok (merged, rest')) :
    rest' = rest ∧ ∀ more,
      mergeDelimited (budget + 1) record (length' ++ body' ++ more) = .ok (merged, more) := by
  rw [mergeDelimited_append spelled] at read
  obtain ⟨same, again⟩ := alike _ _ _ _ read
  exact ⟨same, fun more => (mergeDelimited_append spelled').trans (again more)⟩

end Message

end Protobuf

namespace Store.Message

open Protobuf
open Protobuf.Message (fields mergeField_known mergeDelimited_alike ReadAlike)

def Kind.inner? : Kind → Nat → Option Kind
  | .getResp, 1 | .putResp, 1 | .putReq, 4 => some .content
  | .dtFetchResp, 3 => some .dtValue
  | .dtUpdateReq, 5 => some .dtOp
  | .dtOp, 2 => some .setOp
  | _, _ => none

def Kind.numbers (kind : Kind) : List Nat :=
  (fields (ρ := kind.Record)).map (·.number)

/-- From the first bytes, those of a message, the second have come by putting whole fields of
unknown number between the fields, here and in the messages inside, whose lengths are told anew.
Below this place messages and groups stand in one another `budget` levels deep at most. -/
inductive Laced : (kind : Kind) → (budget : Nat) → Bytes → Bytes → Prop where
  | done {kind : Kind} {budget : Nat} : Laced kind budget [] []
  | unknown {kind : Kind} {budget number : Nat} {field bytes laced : Bytes} :
      number ∉ kind.numbers → Whole number budget field → Laced kind budget bytes laced →
      Laced kind budget bytes (field ++ laced)
  | value {kind : Kind} {budget number : Nat} {wire : WireType}
      {front value bytes laced : Bytes} : number ∈ kind.numbers → kind.inner? number = none →
      KeySpelling number wire front → Plain wire value → Laced kind budget bytes laced →
      Laced kind budget (front ++ (value ++ bytes)) (front ++ (value ++ laced))
  | record {kind inner : Kind} {budget number : Nat}
      {front length length' body body' bytes laced : Bytes} : kind.inner? number = some inner →
      KeySpelling number .lengthDelimited front → Varint.Spelling body.length length →
      Varint.Spelling body'.length length' → Laced inner budget body body' →
      Laced kind (budget + 1) bytes laced →
      Laced kind (budget + 1) (front ++ (length ++ body ++ bytes))
        (front ++ (length' ++ body' ++ laced))

inductive Kind.Shaped (kind : Kind) : List (Protobuf.Field kind.Record) → Prop where
  | done : Shaped kind []
  | single {α : Type} {number : Nat} {codec : Codec α} {get : kind.Record → α}
      {put : kind.Record → α → kind.Record} {fields : List (Protobuf.Field kind.Record)} :
      codec.Scalar → kind.inner? number = none → Shaped kind fields →
      Shaped kind (.single number codec get put :: fields)
  | optional {α : Type} {number : Nat} {codec : Codec α} {get : kind.Record → Option α}
      {put : kind.Record → Option α → kind.Record} {fields : List (Protobuf.Field kind.Record)} :
      codec.Scalar → kind.inner? number = none → Shaped kind fields →
      Shaped kind (.optional number codec get put :: fields)
  | many {α : Type} {number : Nat} {codec : Codec α} {get : kind.Record → List α}
      {put : kind.Record → List α → kind.Record} {fields : List (Protobuf.Field kind.Record)} :
      codec.Scalar → kind.inner? number = none → Shaped kind fields →
      Shaped kind (.many number codec get put :: fields)
  | record (inner : Kind) {number : Nat} {get : kind.Record → inner.Record}
      {put : kind.Record → inner.Record → kind.Record}
      {fields : List (Protobuf.Field kind.Record)} :
      kind.inner? number = some inner → Shaped kind fields →
      Shaped kind (.single number .message get put :: fields)
  | optionalRecord (inner : Kind) {number : Nat} {get : kind.Record → Option inner.Record}
      {put : kind.Record → Option inner.Record → kind.Record}
      {fields : List (Protobuf.Field kind.Record)} :
      kind.inner? number = some inner → Shaped kind fields →
      Shaped kind (.optional number .message get put :: fields)
  | manyRecords (inner : Kind) {number : Nat} {get : kind.Record → List inner.Record}
      {put : kind.Record → List inner.Record → kind.Record}
      {fields : List (Protobuf.Field kind.Record)} :
      kind.inner? number = some inner → Shaped kind fields →
      Shaped kind (.many number .message get put :: fields)

theorem shaped_record : (kind : Kind) → kind.Shaped fields
  | .errorResp => .single scalar_bytes rfl <| .single scalar_uint32 rfl .done
  | .content =>
      .single scalar_bytes rfl <| .optional scalar_bytes rfl <| .optional scalar_bytes rfl <|
      .optional scalar_bytes rfl <| .optional scalar_bytes rfl <| .optional scalar_uint32 rfl <|
      .optional scalar_uint32 rfl <| .optional scalar_bool rfl .done
  | .getReq =>
      .single scalar_bytes rfl <| .single scalar_bytes rfl <| .optional scalar_uint32 rfl <|
      .optional scalar_uint32 rfl <| .optional scalar_bool rfl <| .optional scalar_bool rfl <|
      .optional scalar_bool rfl <| .optional scalar_uint32 rfl <| .optional scalar_bool rfl <|
      .optional scalar_uint32 rfl <| .optional scalar_bytes rfl .done
  | .getResp =>
      .manyRecords .content rfl <| .optional scalar_bytes rfl <| .optional scalar_bool rfl .done
  | .putReq =>
      .single scalar_bytes rfl <| .optional scalar_bytes rfl <| .optional scalar_bytes rfl <|
      .record .content rfl <| .optional scalar_uint32 rfl <| .optional scalar_bool rfl <|
      .optional scalar_uint32 rfl <| .optional scalar_uint32 rfl <| .optional scalar_bool rfl <|
      .optional scalar_uint32 rfl <| .optional scalar_bytes rfl .done
  | .putResp =>
      .manyRecords .content rfl <| .optional scalar_bytes rfl <| .optional scalar_bytes rfl .done
  | .delReq =>
      .single scalar_bytes rfl <| .single scalar_bytes rfl <| .optional scalar_bytes rfl <|
      .optional scalar_uint32 rfl <| .optional scalar_uint32 rfl <| .optional scalar_uint32 rfl <|
      .optional scalar_bool rfl <| .optional scalar_uint32 rfl <| .optional scalar_bytes rfl .done
  | .dtFetchReq =>
      .single scalar_bytes rfl <| .single scalar_bytes rfl <| .single scalar_bytes rfl <|
      .optional scalar_uint32 rfl <| .optional scalar_uint32 rfl <| .optional scalar_bool rfl <|
      .optional scalar_bool rfl <| .optional scalar_uint32 rfl <| .optional scalar_bool rfl <|
      .optional scalar_uint32 rfl <| .optional scalar_bool rfl .done
  | .dtValue => .optional scalar_sint64 rfl <| .many scalar_bytes rfl .done
  | .dtFetchResp =>
      .optional scalar_bytes rfl <| .single scalar_int32 rfl <| .optionalRecord .dtValue rfl .done
  | .setOp => .many scalar_bytes rfl <| .many scalar_bytes rfl .done
  | .dtOp => .optionalRecord .setOp rfl .done
  | .dtUpdateReq =>
      .single scalar_bytes rfl <| .optional scalar_bytes rfl <| .single scalar_bytes rfl <|
      .optional scalar_bytes rfl <| .record .dtOp rfl <| .optional scalar_uint32 rfl <|
      .optional scalar_uint32 rfl <| .optional scalar_bool rfl <| .optional scalar_uint32 rfl <|
      .optional scalar_bool rfl <| .optional scalar_uint32 rfl .done
  | .dtUpdateResp =>
      .optional scalar_bytes rfl <| .optional scalar_bytes rfl <| .optional scalar_sint64 rfl <|
      .many scalar_bytes rfl .done
  | .counterUpdateReq =>
      .single scalar_bytes rfl <| .single scalar_bytes rfl <| .single scalar_sint64 rfl <|
      .optional scalar_uint32 rfl <| .optional scalar_uint32 rfl <| .optional scalar_bool rfl .done
  | .counterGetReq =>
      .single scalar_bytes rfl <| .single scalar_bytes rfl <| .optional scalar_uint32 rfl <|
      .optional scalar_uint32 rfl <| .optional scalar_bool rfl <| .optional scalar_bool rfl .done
  | .counterResp => .optional scalar_sint64 rfl .done

namespace Kind.Shaped

variable {kind inner : Kind} {parts : List (Protobuf.Field kind.Record)}
  {field : Protobuf.Field kind.Record}

theorem scalar (h : kind.Shaped parts) (hm : field ∈ parts)
    (none : kind.inner? field.number = none) : field.Scalar := by
  induction h with
  | done => cases hm
  | single scalar _ _ ih =>
      rcases List.mem_cons.mp hm with rfl | hm
      · exact Protobuf.Field.scalar_single scalar
      · exact ih hm
  | optional scalar _ _ ih =>
      rcases List.mem_cons.mp hm with rfl | hm
      · exact Protobuf.Field.scalar_optional scalar
      · exact ih hm
  | many scalar _ _ ih =>
      rcases List.mem_cons.mp hm with rfl | hm
      · exact Protobuf.Field.scalar_many scalar
      · exact ih hm
  | record inner some _ ih | optionalRecord inner some _ ih | manyRecords inner some _ ih =>
      rcases List.mem_cons.mp hm with rfl | hm
      · exact absurd (some.symm.trans none) (by simp)
      · exact ih hm

theorem nests (h : kind.Shaped parts) (hm : field ∈ parts)
    (some : kind.inner? field.number = some inner) : field.Nests inner.Record := by
  induction h with
  | done => cases hm
  | single _ none _ ih | optional _ none _ ih | many _ none _ ih =>
      rcases List.mem_cons.mp hm with rfl | hm
      · exact absurd (some.symm.trans none) (by simp)
      · exact ih hm
  | @record other number get put _ same _ ih =>
      rcases List.mem_cons.mp hm with rfl | hm
      · obtain rfl := Option.some.inj (some.symm.trans same)
        exact fun old => ⟨get old, put old, fun _ _ => rfl⟩
      · exact ih hm
  | @optionalRecord other number get put _ same _ ih =>
      rcases List.mem_cons.mp hm with rfl | hm
      · obtain rfl := Option.some.inj (some.symm.trans same)
        exact fun old => ⟨(get old).getD Protobuf.Message.blank, fun v => put old (Option.some v),
          fun _ _ => rfl⟩
      · exact ih hm
  | @manyRecords other number get put _ same _ ih =>
      rcases List.mem_cons.mp hm with rfl | hm
      · obtain rfl := Option.some.inj (some.symm.trans same)
        exact fun old => ⟨Protobuf.Message.blank, fun v => put old (get old ++ [v]), fun _ _ => rfl⟩
      · exact ih hm

end Kind.Shaped

theorem Kind.mem_numbers_of_inner? {kind inner : Kind} {number : Nat}
    (h : kind.inner? number = some inner) : number ∈ kind.numbers := by
  unfold Kind.inner? at h
  split at h <;> cases h <;> decide

theorem Laced.readAlike {kind : Kind} {budget : Nat} {bytes laced : Bytes}
    (h : Laced kind budget bytes laced) : ReadAlike kind.Record budget bytes laced := by
  induction h with
  | done => exact ReadAlike.nil
  | unknown unknown whole _ ih => exact ih.unknown whole (Nat.le_refl _) unknown
  | @value kind budget number wire front value bytes laced known none key plain _ ih =>
      obtain ⟨field, hm, rfl, merge⟩ := mergeField_known known
      refine ih.keyed key fun read => ?_
      simp only [merge] at read ⊢
      exact (shaped_record kind).scalar hm none plain read
  | @record kind inner budget number front length length' body body' bytes laced some key spelled
      spelled' _ _ inside ih =>
      obtain ⟨field, hm, rfl, merge⟩ := mergeField_known (Kind.mem_numbers_of_inner? some)
      refine ih.keyed key fun {before between rest rest'} read => ?_
      obtain ⟨start, put, nested⟩ := (shaped_record kind).nests hm some before
      rw [merge, nested] at read
      obtain ⟨⟨value, behind⟩, read, same⟩ := map_eq_ok read
      cases same
      obtain ⟨same, again⟩ := mergeDelimited_alike inside spelled spelled' read
      refine ⟨same, fun more => ?_⟩
      rw [merge, nested, again]
      rfl

def Kept (kind : Kind) (budget : Nat) (piece : Bytes) : Prop :=
  ∀ bytes laced, Laced kind budget bytes laced → Laced kind budget (piece ++ bytes) (piece ++ laced)

namespace Kept

variable {kind inner : Kind} {budget number : Nat} {α : Type} {codec : Codec α}
  {first second : Bytes}

theorem nil : Kept kind budget [] :=
  fun _ _ rest => rest

theorem append (h : Kept kind budget first) (h' : Kept kind budget second) :
    Kept kind budget (first ++ second) := by
  intro bytes laced rest
  rw [List.append_assoc, List.append_assoc]
  exact h _ _ (h' _ _ rest)

theorem flatMap {values : List α} {write : α → Bytes}
    (each : ∀ value ∈ values, Kept kind budget (write value)) :
    Kept kind budget (values.flatMap write) := by
  induction values with
  | nil => exact nil
  | cons value values ih =>
      obtain ⟨first, others⟩ := List.forall_mem_cons.mp each
      exact first.append (ih others)

theorem keySpelling_of_mem (known : number ∈ kind.numbers) (wire : WireType) :
    KeySpelling number wire (key number wire) := by
  obtain ⟨positive, lt⟩ := (faithful_record kind).bounded number known
  exact keySpelling_key positive lt wire

theorem scalar (known : number ∈ kind.numbers) (none : kind.inner? number = none)
    (scalar : codec.Scalar) {value : α}
    (short : (codec.encodeField number value).length < Varint.limit) :
    Kept kind budget (codec.encodeField number value) := by
  intro bytes laced rest
  rw [Codec.encodeField, List.length_append] at short
  rw [Codec.encodeField, List.append_assoc, List.append_assoc]
  exact .value known none (keySpelling_of_mem known _) (scalar.plain (by omega)) rest

theorem record (some : kind.inner? number = some inner) {value : inner.Record}
    (inside : Laced inner budget (Protobuf.Message.encode value) (Protobuf.Message.encode value))
    (short : (Codec.message.encodeField number value).length < Varint.limit) :
    Kept kind (budget + 1) (Codec.message.encodeField number value) := by
  intro bytes laced rest
  have length := (faithful_record inner).length_encode value
  have short : (key number .lengthDelimited ++ (Varint.encode (Protobuf.Message.size value) ++
    Protobuf.Message.encode value)).length < Varint.limit := short
  rw [List.length_append, List.length_append] at short
  have spelled : Varint.Spelling (Protobuf.Message.encode value).length
      (Varint.encode (Protobuf.Message.size value)) :=
    length ▸ Varint.spelling_encode (by omega)
  change Laced kind (budget + 1) (key number .lengthDelimited ++ _ ++ bytes)
    (key number .lengthDelimited ++ _ ++ laced)
  rw [List.append_assoc, List.append_assoc]
  exact .record some (keySpelling_of_mem (Kind.mem_numbers_of_inner? some) _) spelled spelled inside
    rest

theorem single {get : kind.Record → α} {put : kind.Record → α → kind.Record} {record : kind.Record}
    (each : ∀ value, (codec.encodeField number value).length < Varint.limit →
      Kept kind budget (codec.encodeField number value))
    (short : ((Protobuf.Field.single number codec get put).encode record).length < Varint.limit) :
    Kept kind budget ((Protobuf.Field.single number codec get put).encode record) :=
  each _ short

theorem optional {get : kind.Record → Option α} {put : kind.Record → Option α → kind.Record}
    {record : kind.Record}
    (each : ∀ value, (codec.encodeField number value).length < Varint.limit →
      Kept kind budget (codec.encodeField number value))
    (short : ((Protobuf.Field.optional number codec get put).encode record).length < Varint.limit) :
    Kept kind budget ((Protobuf.Field.optional number codec get put).encode record) := by
  change ((get record).elim [] (codec.encodeField number)).length < _ at short
  change Kept kind budget ((get record).elim [] (codec.encodeField number))
  cases held : get record with
  | none => exact nil
  | some value =>
      rw [held] at short
      exact each value short

theorem many {get : kind.Record → List α} {put : kind.Record → List α → kind.Record}
    {record : kind.Record}
    (each : ∀ value, (codec.encodeField number value).length < Varint.limit →
      Kept kind budget (codec.encodeField number value))
    (short : ((Protobuf.Field.many number codec get put).encode record).length < Varint.limit) :
    Kept kind budget ((Protobuf.Field.many number codec get put).encode record) := by
  change ((get record).flatMap (codec.encodeField number)).length < _ at short
  refine flatMap fun value hm => each value (Nat.lt_of_le_of_lt ?_ short)
  exact (List.sublist_flatten_of_mem (List.mem_map_of_mem hm)).length_le

theorem cons {field : Protobuf.Field kind.Record} {parts : List (Protobuf.Field kind.Record)}
    {record : kind.Record}
    (short : ((field :: parts).flatMap fun field => field.encode record).length < Varint.limit)
    (here : (field.encode record).length < Varint.limit → Kept kind budget (field.encode record))
    (later : (parts.flatMap fun field => field.encode record).length < Varint.limit →
      Kept kind budget (parts.flatMap fun field => field.encode record)) :
    Kept kind budget ((field :: parts).flatMap fun field => field.encode record) := by
  rw [List.flatMap_cons, List.length_append] at short
  exact (here (by omega)).append (later (by omega))

end Kept

def Kind.depth : Kind → Nat
  | .getResp | .putResp | .putReq | .dtFetchResp | .dtOp => 1
  | .dtUpdateReq => 2
  | _ => 0

theorem Kind.depth_inner {kind inner : Kind} {number : Nat} (h : kind.inner? number = some inner) :
    inner.depth < kind.depth := by
  unfold Kind.inner? at h
  split at h <;> cases h <;> decide

theorem Kind.Shaped.kept {kind : Kind} {budget : Nat} {parts : List (Protobuf.Field kind.Record)}
    (h : kind.Shaped parts) (known : ∀ field ∈ parts, field.number ∈ kind.numbers)
    (inside : ∀ {inner number}, kind.inner? number = some inner → ∀ value : inner.Record,
      (Codec.message.encodeField number value).length < Varint.limit →
      Kept kind budget (Codec.message.encodeField number value))
    {record : kind.Record}
    (short : (parts.flatMap fun field => field.encode record).length < Varint.limit) :
    Kept kind budget (parts.flatMap fun field => field.encode record) := by
  induction h with
  | done => exact Kept.nil
  | single scalar none _ ih =>
      obtain ⟨first, others⟩ := List.forall_mem_cons.mp known
      exact Kept.cons short (Kept.single fun _ => Kept.scalar first none scalar) (ih others)
  | optional scalar none _ ih =>
      obtain ⟨first, others⟩ := List.forall_mem_cons.mp known
      exact Kept.cons short (Kept.optional fun _ => Kept.scalar first none scalar) (ih others)
  | many scalar none _ ih =>
      obtain ⟨first, others⟩ := List.forall_mem_cons.mp known
      exact Kept.cons short (Kept.many fun _ => Kept.scalar first none scalar) (ih others)
  | record inner some _ ih =>
      exact Kept.cons short (Kept.single (inside some)) (ih (List.forall_mem_cons.mp known).2)
  | optionalRecord inner some _ ih =>
      exact Kept.cons short (Kept.optional (inside some)) (ih (List.forall_mem_cons.mp known).2)
  | manyRecords inner some _ ih =>
      exact Kept.cons short (Kept.many (inside some)) (ih (List.forall_mem_cons.mp known).2)

theorem laced_encode {kind : Kind} {budget : Nat} (le : kind.depth ≤ budget) {record : kind.Record}
    (short : (Protobuf.Message.encode record).length < Varint.limit) :
    Laced kind budget (Protobuf.Message.encode record) (Protobuf.Message.encode record) := by
  have plain : ∀ {budget} {kind : Kind} {record : kind.Record},
      (∀ {inner number}, kind.inner? number = some inner → ∀ value : inner.Record,
        (Codec.message.encodeField number value).length < Varint.limit →
        Kept kind budget (Codec.message.encodeField number value)) →
      (Protobuf.Message.encode record).length < Varint.limit →
      Laced kind budget (Protobuf.Message.encode record) (Protobuf.Message.encode record) := by
    intro budget kind record inside short
    have all := (shaped_record kind).kept (fun field hm => List.mem_map_of_mem hm) inside short
      _ _ .done
    rwa [List.append_nil] at all
  induction budget generalizing kind with
  | zero =>
      refine plain (fun some => ?_) short
      exact absurd (Kind.depth_inner some) (Nat.not_lt.mpr (Nat.le_trans le (Nat.zero_le _)))
  | succ budget ih =>
      refine plain (fun {inner number} some value within => ?_) short
      have deeper : inner.depth ≤ budget :=
        Nat.le_of_lt_succ (Nat.lt_of_lt_of_le (Kind.depth_inner some) le)
      refine Kept.record some (ih deeper (Nat.lt_of_le_of_lt ?_ within)) within
      change _ ≤ (key number .lengthDelimited ++ (Varint.encode _ ++
        Protobuf.Message.encode value)).length
      rw [List.length_append, List.length_append]
      omega

theorem read_laced (kind : Kind) (record : kind.Record)
    (short : Protobuf.Message.size record < 2 ^ 63) :
    Laced kind Protobuf.Message.maxDepth (Protobuf.Message.encode record)
        (Protobuf.Message.encode record) ∧
      ∀ laced, Laced kind Protobuf.Message.maxDepth (Protobuf.Message.encode record) laced →
        Protobuf.Message.decode laced = .ok record := by
  have faithful := faithful_record kind
  have within := length_encode_lt kind short
  have shallow : kind.depth ≤ Protobuf.Message.maxDepth := by cases kind <;> decide
  refine ⟨laced_encode shallow within, fun laced h => ?_⟩
  have read := faithful.mergeUntil (by decide : 2 ≤ Protobuf.Message.maxDepth) within []
  obtain ⟨-, again⟩ := h.readAlike _ _ _ _ read
  have again := again []
  rw [List.append_nil] at again
  change (Protobuf.Message.mergeUntil ([] : Bytes).length _ Protobuf.Message.blank laced).map _ = _
  rw [again]
  rfl

theorem read_laced_group :
    let record : DtOp := { setOp := some { adds := [[7]] } }
    let laced : Bytes := [10, 0, 18, 7, 10, 1, 7, 27, 8, 5, 28]
    Protobuf.Message.size record < 2 ^ 63 ∧
      Laced .dtOp Protobuf.Message.maxDepth (Protobuf.Message.encode record) laced ∧
      Protobuf.Message.decode laced = .ok record := by
  intro record laced
  have short : Protobuf.Message.size record < 2 ^ 63 := by decide +kernel
  have written : Protobuf.Message.encode record = [18, 3, 10, 1, 7] := by decide +kernel
  have byte : ∀ b : UInt8, b < 128 → Varint.Spelling b.toNat [b] := fun b low =>
    ⟨.last low, Nat.succ_le_succ (Nat.zero_le 9), Nat.lt_trans b.toNat_lt (by decide)⟩
  have key : ∀ {number wire} (b : UInt8), b < 128 → 8 * number + wireCode wire = b.toNat →
      0 < number → number < numberLimit → KeySpelling number wire [b] :=
    fun b low same positive lt => ⟨same ▸ byte b low, positive, lt⟩
  have member : Plain .lengthDelimited [1, 7] := @Plain.lengthDelimited [1] [7] (byte 1 (by decide))
  have five : Whole 1 98 [8, 5] :=
    @Whole.value 1 97 .varint [8] [5] (key 8 (by decide) rfl (by decide) (by decide))
      (.varint (byte 5 (by decide)))
  have group : Whole 3 99 [27, 8, 5, 28] :=
    @Whole.group 3 98 [27] [28] [(1, [8, 5])] (key 27 (by decide) rfl (by decide) (by decide))
      (List.forall_mem_singleton.mpr five) (key 28 (by decide) rfl (by decide) (by decide))
  have counter : Whole 1 100 [10, 0] :=
    @Whole.value 1 99 .lengthDelimited [10] [0] (key 10 (by decide) rfl (by decide) (by decide))
      (@Plain.lengthDelimited [0] [] (byte 0 (by decide)))
  have inside : Laced .setOp 99 [10, 1, 7] [10, 1, 7, 27, 8, 5, 28] :=
    @Laced.value .setOp 99 1 .lengthDelimited [10] [1, 7] [] [27, 8, 5, 28] (by decide) rfl
      (key 10 (by decide) rfl (by decide) (by decide)) member
      (.unknown (by decide) group .done)
  have between : Laced .dtOp 100 [18, 3, 10, 1, 7] laced :=
    .unknown (by decide) counter <|
      @Laced.record .dtOp .setOp 99 2 [18] [3] [7] [10, 1, 7] [10, 1, 7, 27, 8, 5, 28] [] [] rfl
        (key 18 (by decide) rfl (by decide) (by decide)) (byte 3 (by decide)) (byte 7 (by decide))
        inside .done
  rw [← written] at between
  exact ⟨short, between, (read_laced .dtOp record short).2 laced between⟩

end Store.Message

end ReadThrough
