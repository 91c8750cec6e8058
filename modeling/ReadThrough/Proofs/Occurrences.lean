import ReadThrough.Proofs.Responses
import ReadThrough.Proofs.Skipping

namespace ReadThrough

namespace Protobuf

inductive Collects (number budget : Nat) (reads : Bytes → List Bytes → Bytes → Prop) :
    Bytes → List Bytes → Bytes → Prop
  | done {bytes : Bytes} : Collects number budget reads bytes [] bytes
  | found {bytes inside rest last : Bytes} {values more : List Bytes} :
      readKey bytes = .ok (number, .lengthDelimited, inside) → reads inside values rest →
      Collects number budget reads rest more last →
      Collects number budget reads bytes (values ++ more) last
  | other {n : Nat} {wire : WireType} {bytes inside rest last : Bytes} {values : List Bytes} :
      readKey bytes = .ok (n, wire, inside) → n ≠ number → skip budget n wire inside = .ok rest →
      Collects number budget reads rest values last → Collects number budget reads bytes values last

inductive OneString : Bytes → List Bytes → Bytes → Prop
  | read {bytes value rest : Bytes} : readDelimited bytes = .ok (value, rest) →
      OneString bytes [value] rest

inductive Nested (number budget : Nat) : Bytes → List Bytes → Bytes → Prop
  | read {bytes inside rest : Bytes} {length : Nat} {values : List Bytes} :
      Varint.decode bytes = .ok (length, inside) →
      Collects number budget OneString inside values rest → rest.length + length = inside.length →
      Nested number budget bytes values rest

section Collected

variable {number budget : Nat} {reads : Bytes → List Bytes → Bytes → Prop}
  {bytes last last' : Bytes} {values values' : List Bytes}

def Within (reads : Bytes → List Bytes → Bytes → Prop) : Prop :=
  ∀ {bytes values rest}, reads bytes values rest →
    rest.length ≤ bytes.length ∧ ∀ value ∈ values, value.length ≤ bytes.length

def Functional (reads : Bytes → List Bytes → Bytes → Prop) : Prop :=
  ∀ {bytes values rest values' rest'}, reads bytes values rest → reads bytes values' rest' →
    values = values' ∧ rest = rest'

theorem Collects.within (within : Within reads) : Within (Collects number budget reads) := by
  intro bytes values last h
  induction h with
  | done => exact ⟨Nat.le_refl _, List.forall_mem_nil _⟩
  | found key here _ ih =>
      have shorter := readKey_shorter key
      obtain ⟨left, small⟩ := within here
      refine ⟨by omega, fun value hm => ?_⟩
      rcases List.mem_append.mp hm with hm | hm
      · exact Nat.le_trans (small value hm) (Nat.le_of_lt shorter)
      · exact Nat.le_trans (ih.2 value hm) (by omega)
  | other key _ past _ ih =>
      have shorter := readKey_shorter key
      have left := skip_shorter past
      exact ⟨by omega, fun value hm => Nat.le_trans (ih.2 value hm) (by omega)⟩

theorem Collects.unique (within : Within reads) (functional : Functional reads)
    (h : Collects number budget reads bytes values last)
    (h' : Collects number budget reads bytes values' last') (same : last.length = last'.length) :
    values = values' ∧ last = last' := by
  -- Whoever has read one field more has less left, so both stop at the same field.
  have ahead {bytes inside rest last : Bytes} {n : Nat} {wire : WireType} {values : List Bytes}
      (key : readKey bytes = .ok (n, wire, inside)) (left : rest.length ≤ inside.length)
      (more : Collects number budget reads rest values last) : last.length < bytes.length := by
    have shorter := readKey_shorter key
    have behind := (Collects.within within more).1
    omega
  induction h generalizing values' with
  | done =>
      cases h' with
      | done => exact ⟨rfl, rfl⟩
      | found key here more => exact absurd same (Nat.ne_of_gt (ahead key (within here).1 more))
      | other key _ past more =>
          exact absurd same (Nat.ne_of_gt (ahead key (skip_shorter past) more))
  | found key here more ih =>
      cases h' with
      | done => exact absurd same (Nat.ne_of_lt (ahead key (within here).1 more))
      | found key' here' more' =>
          cases key.symm.trans key'
          obtain ⟨rfl, rfl⟩ := functional here here'
          obtain ⟨rfl, rfl⟩ := ih more' same
          exact ⟨rfl, rfl⟩
      | other key' ne =>
          cases key.symm.trans key'
          exact absurd rfl ne
  | other key ne past more ih =>
      cases h' with
      | done => exact absurd same (Nat.ne_of_lt (ahead key (skip_shorter past) more))
      | found key' =>
          cases key.symm.trans key'
          exact absurd rfl ne
      | other key' _ past' more' =>
          cases key.symm.trans key'
          cases past.symm.trans past'
          exact ih more' same

theorem within_oneString : Within OneString := by
  rintro bytes _ rest ⟨read⟩
  exact ⟨Nat.le_of_lt (readDelimited_shorter read),
    List.forall_mem_singleton.mpr (readDelimited_length read)⟩

theorem functional_oneString : Functional OneString := by
  rintro bytes _ rest _ rest' ⟨read⟩ ⟨read'⟩
  cases read.symm.trans read'
  exact ⟨rfl, rfl⟩

theorem within_nested : Within (Nested number budget) := by
  rintro bytes values _ ⟨front, inner, -⟩
  have shorter := Varint.decode_shorter front
  obtain ⟨left, small⟩ := Collects.within within_oneString inner
  exact ⟨by omega, fun value hm => Nat.le_trans (small value hm) (Nat.le_of_lt shorter)⟩

theorem functional_nested : Functional (Nested number budget) := by
  rintro bytes values _ values' _ ⟨front, inner, size⟩ ⟨front', inner', size'⟩
  cases front.symm.trans front'
  exact inner.unique within_oneString functional_oneString inner' (by omega)

end Collected

section Fields

variable {ρ α : Type} {budget number behind : Nat} {record merged : ρ} {bytes rest : Bytes}

def Codec.Skips (codec : Codec α) : Prop :=
  ∀ {budget number old bytes value rest}, codec.merge (budget + 1) old bytes = .ok (value, rest) →
    skip (budget + 1) number codec.wire bytes = .ok rest

theorem skips_bytes : Codec.bytes.Skips := by
  intro budget number old bytes value rest read
  change readDelimited bytes = _ at read
  change (readDelimited bytes).map Prod.snd = _
  rw [read]
  rfl

theorem skips_number {blank : α} {toNat : α → Nat} {ofNat : Nat → α} :
    (Codec.number blank toNat ofNat).Skips := by
  intro budget number old bytes value rest read
  obtain ⟨⟨n, after⟩, read, same⟩ := map_eq_ok read
  cases same
  change (Varint.decode bytes).map Prod.snd = _
  rw [read]
  rfl

theorem collects_of_mergeUntil [Message ρ] {get : ρ → List Bytes}
    {reads : Bytes → List Bytes → Bytes → Prop}
    (steps : ∀ {n wire record bytes merged rest},
      Message.mergeField (ρ := ρ) budget n wire record bytes = .ok (merged, rest) →
        (n = number ∧ wire = .lengthDelimited ∧
          ∃ values, reads bytes values rest ∧ get merged = get record ++ values) ∨
        (n ≠ number ∧ skip budget n wire bytes = .ok rest ∧ get merged = get record))
    (h : Message.mergeUntil behind budget record bytes = .ok (merged, rest)) :
    ∃ values, Collects number budget reads bytes values rest ∧
      get merged = get record ++ values := by
  fun_induction Message.mergeUntil behind budget record bytes with
  | case1 record bytes =>
      cases h
      exact ⟨[], .done, (List.append_nil _).symm⟩
  | case2 | case3 | case4 => cases h
  | case5 record bytes _ n wire inside key merged' after merge _ _ ih =>
      obtain ⟨more, later, same⟩ := ih h
      rcases steps merge with ⟨rfl, rfl, values, here, brought⟩ | ⟨ne, past, kept⟩
      · refine ⟨values ++ more, .found key here later, ?_⟩
        rw [same, brought, List.append_assoc]
      · exact ⟨more, .other key ne past later, same.trans (congrArg (· ++ more) kept)⟩

end Fields

end Protobuf

namespace Store.Message

open Protobuf (Collects Field Nested OneString skip)
open Protobuf.Message (maxDepth mergeDelimited mergeField mergeField_unknown)

def SetValue (payload : Bytes) (source : List Bytes) : Prop :=
  Collects 3 maxDepth (Nested 2 (maxDepth - 1)) payload source []

variable {budget number : Nat} {wire : WireType} {bytes rest payload : Bytes}
  {source source' : List Bytes}

theorem SetValue.unique (h : SetValue payload source) (h' : SetValue payload source') :
    source = source' :=
  (Collects.unique Protobuf.within_nested Protobuf.functional_nested h h' rfl).1

theorem SetValue.length_le (h : SetValue payload source) :
    ∀ m ∈ source, m.length ≤ payload.length :=
  (Collects.within Protobuf.within_nested h).2

theorem step_dtValue {record merged : DtValue}
    (h : mergeField (budget + 1) number wire record bytes = .ok (merged, rest)) :
    (number = 2 ∧ wire = .lengthDelimited ∧
      ∃ values, OneString bytes values rest ∧ merged.setValue = record.setValue ++ values) ∨
    (number ≠ 2 ∧ skip (budget + 1) number wire bytes = .ok rest ∧
      merged.setValue = record.setValue) := by
  by_cases member : number = 2
  · subst member
    change (Field.many 2 .bytes DtValue.setValue _).merge _ wire record bytes = _ at h
    obtain ⟨same, value, read, rfl⟩ := Field.many_eq_ok h
    exact Or.inl ⟨rfl, same, [value], .read read, rfl⟩
  · refine Or.inr ⟨member, ?_⟩
    by_cases counter : number = 1
    · subst counter
      change (Field.optional 1 .sint64 DtValue.counterValue _).merge _ wire record bytes = _ at h
      obtain ⟨rfl, value, read, rfl⟩ := Field.optional_eq_ok h
      exact ⟨Protobuf.skips_number read, rfl⟩
    · have unknown : number ∉ (Protobuf.Message.fields (ρ := DtValue)).map (·.number) := by
        rintro (_ | ⟨_, _ | ⟨_, ⟨⟩⟩⟩)
        · exact counter rfl
        · exact member rfl
      rw [mergeField_unknown unknown] at h
      obtain ⟨after, past, same⟩ := map_eq_ok h
      cases same
      exact ⟨past, rfl⟩

theorem nested_of_mergeDelimited {record merged : DtValue}
    (h : mergeDelimited (budget + 2) record bytes = .ok (merged, rest)) :
    ∃ values, Nested 2 (budget + 1) bytes values rest ∧
      merged.setValue = record.setValue ++ values := by
  unfold Protobuf.Message.mergeDelimited at h
  rw [if_neg (Nat.succ_ne_zero _)] at h
  split at h
  · cases h
  · next length inside front =>
      split at h
      · cases h
      · next enough =>
          obtain ⟨values, collected, same⟩ := Protobuf.collects_of_mergeUntil step_dtValue h
          have left := Protobuf.Message.length_of_mergeUntil h
          exact ⟨values, .read front collected (by omega), same⟩

def DtFetchResp.setValue (message : DtFetchResp) : List Bytes :=
  (message.value.getD {}).setValue

theorem step_dtFetchResp {record merged : DtFetchResp}
    (h : mergeField (budget + 2) number wire record bytes = .ok (merged, rest)) :
    (number = 3 ∧ wire = .lengthDelimited ∧ ∃ values, Nested 2 (budget + 1) bytes values rest ∧
      merged.setValue = record.setValue ++ values) ∨
    (number ≠ 3 ∧ skip (budget + 2) number wire bytes = .ok rest ∧
      merged.setValue = record.setValue) := by
  by_cases set : number = 3
  · subst set
    change (Field.optional 3 .message DtFetchResp.value _).merge _ wire record bytes = _ at h
    obtain ⟨same, value, read, rfl⟩ := Field.optional_eq_ok h
    obtain ⟨values, nested, brought⟩ := nested_of_mergeDelimited read
    exact Or.inl ⟨rfl, same, values, nested, brought⟩
  · refine Or.inr ⟨set, ?_⟩
    by_cases context : number = 1
    · subst context
      change (Field.optional 1 .bytes DtFetchResp.context _).merge _ wire record bytes = _ at h
      obtain ⟨rfl, value, read, rfl⟩ := Field.optional_eq_ok h
      exact ⟨Protobuf.skips_bytes read, rfl⟩
    · by_cases type : number = 2
      · subst type
        change (Field.single 2 .int32 DtFetchResp.dataType _).merge _ wire record bytes = _ at h
        obtain ⟨rfl, value, read, rfl⟩ := Field.single_eq_ok h
        exact ⟨Protobuf.skips_number read, rfl⟩
      · have unknown : number ∉ (Protobuf.Message.fields (ρ := DtFetchResp)).map (·.number) := by
          rintro (_ | ⟨_, _ | ⟨_, _ | ⟨_, ⟨⟩⟩⟩⟩)
          · exact context rfl
          · exact type rfl
          · exact set rfl
        rw [mergeField_unknown unknown] at h
        obtain ⟨after, past, same⟩ := map_eq_ok h
        cases same
        exact ⟨past, rfl⟩

theorem setValue_of_decode {message : DtFetchResp}
    (h : Protobuf.Message.decode payload = .ok message) : SetValue payload message.setValue := by
  obtain ⟨⟨record, rest⟩, read, rfl⟩ := map_eq_ok h
  obtain ⟨values, collected, same⟩ := Protobuf.collects_of_mergeUntil step_dtFetchResp read
  have nothing : rest = [] :=
    List.length_eq_zero_iff.mp (Protobuf.Message.length_of_mergeUntil read)
  subst nothing
  have brought : record.setValue = values := same
  exact brought ▸ collected

end Store.Message

end ReadThrough
