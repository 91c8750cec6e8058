import ReadThrough.Proofs.Outcomes
import ReadThrough.Store.Response

namespace ReadThrough

namespace Protobuf

section Fields

variable {ρ α : Type} {codec : Codec α} {budget count limit : Nat} {wire : WireType} {old value : α}
  {put : α → ρ} {bytes taken rest : Bytes} {record : ρ}

theorem takeBytes_length (h : takeBytes count bytes = .ok (taken, rest)) :
    taken.length ≤ bytes.length := by
  unfold takeBytes at h
  dsimp only at h
  split at h
  · cases h
  · cases h
    exact List.length_take_le' _ _

theorem readDelimited_length (h : readDelimited bytes = .ok (taken, rest)) :
    taken.length ≤ bytes.length := by
  unfold readDelimited at h
  split at h
  · cases h
  · next read => exact Nat.le_trans (takeBytes_length h) (Nat.le_of_lt (Varint.decode_shorter read))

theorem Codec.mergeInto_eq_ok (h : codec.mergeInto budget wire old put bytes = .ok (record, rest)) :
    wire = codec.wire ∧
      ∃ value, codec.merge budget old bytes = .ok (value, rest) ∧ record = put value := by
  unfold Codec.mergeInto at h
  split at h
  · cases h
  · next same =>
      obtain ⟨⟨value, after⟩, read, put⟩ := map_eq_ok h
      cases put
      exact ⟨not_not.mp same, value, read, rfl⟩

theorem Field.single_eq_ok {number : Nat} {get : ρ → α} {put : ρ → α → ρ} {old : ρ}
    (h : (Field.single number codec get put).merge budget wire old bytes = .ok (record, rest)) :
    wire = codec.wire ∧
      ∃ value, codec.merge budget (get old) bytes = .ok (value, rest) ∧ record = put old value := by
  change codec.mergeInto budget wire (get old) (put old) bytes = _ at h
  exact Codec.mergeInto_eq_ok h

theorem Field.optional_eq_ok {number : Nat} {get : ρ → Option α} {put : ρ → Option α → ρ} {old : ρ}
    (h : (Field.optional number codec get put).merge budget wire old bytes = .ok (record, rest)) :
    wire = codec.wire ∧ ∃ value,
      codec.merge budget ((get old).getD codec.blank) bytes = .ok (value, rest) ∧
        record = put old (some value) := by
  change codec.mergeInto budget wire ((get old).getD codec.blank) (fun v => put old (some v)) bytes =
    _ at h
  exact Codec.mergeInto_eq_ok h

theorem Field.many_eq_ok {number : Nat} {get : ρ → List α} {put : ρ → List α → ρ} {old : ρ}
    (h : (Field.many number codec get put).merge budget wire old bytes = .ok (record, rest)) :
    wire = codec.wire ∧ ∃ value, codec.merge budget codec.blank bytes = .ok (value, rest) ∧
      record = put old (get old ++ [value]) := by
  change codec.mergeInto budget wire codec.blank (fun v => put old (get old ++ [v])) bytes = _ at h
  exact Codec.mergeInto_eq_ok h

end Fields

namespace Message

variable {ρ : Type} [Message ρ] {good : ρ → Prop} {limit budget number behind : Nat}
  {wire : WireType} {record merged : ρ} {bytes rest : Bytes}

def Keeps (good : ρ → Prop) (limit : Nat) : Prop :=
  ∀ field ∈ fields (ρ := ρ), ∀ {budget wire old bytes record rest}, bytes.length ≤ limit →
    good old → field.merge budget wire old bytes = .ok (record, rest) → good record

variable (keeps : Keeps good limit) (start : good record)

include keeps start

theorem Keeps.mergeField (le : bytes.length ≤ limit)
    (h : mergeField budget number wire record bytes = .ok (merged, rest)) : good merged := by
  unfold Message.mergeField at h
  split at h
  · next field found => exact keeps field (List.mem_of_find?_eq_some found) le start h
  · obtain ⟨after, -, same⟩ := map_eq_ok h
    cases same
    exact start

theorem Keeps.mergeUntil (le : bytes.length ≤ limit)
    (h : mergeUntil behind budget record bytes = .ok (merged, rest)) : good merged := by
  fun_induction Message.mergeUntil behind budget record bytes with
  | case1 record bytes =>
      cases h
      exact start
  | case2 | case3 | case4 => cases h
  | case5 record bytes _ number wire after key merged' after' merge shorter shorter' ih =>
      have within : after.length ≤ limit := Nat.le_trans (Nat.le_of_lt shorter) le
      exact ih (keeps.mergeField start within merge) (Nat.le_trans shorter' within) h

theorem Keeps.mergeDelimited (le : bytes.length ≤ limit)
    (h : mergeDelimited budget record bytes = .ok (merged, rest)) : good merged := by
  unfold Message.mergeDelimited at h
  split at h
  · cases h
  · split at h
    · cases h
    · next read =>
        split at h
        · cases h
        · exact keeps.mergeUntil start
            (Nat.le_trans (Nat.le_of_lt (Varint.decode_shorter read)) le) h

omit start in
theorem Keeps.decode (blank : good Message.blank) (le : bytes.length ≤ limit)
    (h : decode bytes = .ok merged) : good merged := by
  obtain ⟨⟨record, rest⟩, read, rfl⟩ := map_eq_ok h
  exact keeps.mergeUntil blank le read

end Message

end Protobuf

namespace Store

open Protobuf (Message.Keeps)

section Values

variable {limit : Nat} {payload : Bytes} {kind : RequestKind} {code : UInt8}
  {siblings : List Sibling} {vclock : Option Bytes}

theorem keeps_content :
    Message.Keeps (fun content : Message.Content => content.value.length ≤ limit) limit := by
  intro field hm budget wire old bytes record rest le start h
  simp only [Protobuf.Message.fields, List.mem_cons, List.not_mem_nil, or_false] at hm
  rcases hm with rfl | rfl | rfl | rfl | rfl | rfl | rfl | rfl
  · obtain ⟨-, value, read, rfl⟩ := Protobuf.Field.single_eq_ok h
    exact Nat.le_trans (Protobuf.readDelimited_length read) le
  all_goals
    obtain ⟨-, value, -, rfl⟩ := Protobuf.Field.optional_eq_ok h
    exact start

theorem keeps_getResp : Message.Keeps
    (fun message : Message.GetResp => ∀ c ∈ message.content, c.value.length ≤ limit) limit := by
  intro field hm budget wire old bytes record rest le start h
  simp only [Protobuf.Message.fields, List.mem_cons, List.not_mem_nil, or_false] at hm
  rcases hm with rfl | rfl | rfl
  · obtain ⟨-, content, read, rfl⟩ := Protobuf.Field.many_eq_ok h
    refine List.forall_mem_append.mpr ⟨start, List.forall_mem_singleton.mpr ?_⟩
    exact keeps_content.mergeDelimited (Nat.zero_le _) le read
  all_goals
    obtain ⟨-, value, -, rfl⟩ := Protobuf.Field.optional_eq_ok h
    exact start

theorem stripQuotes_length (value : Bytes) : (stripQuotes value).length ≤ value.length := by
  unfold stripQuotes
  split
  · rw [List.length_dropLast, List.length_drop]
    omega
  · exact Nat.le_refl _

namespace Response

theorem record_eq_ok {ρ : Type} [Protobuf.Message ρ] {message : ρ}
    (h : record payload = .ok message) : Protobuf.Message.decode payload = .ok message := by
  unfold record at h
  split at h
  · next read =>
      cases h
      exact read
  · cases h

theorem decode_cases {response : Response} (h : decode code payload kind = .ok response) :
    (∃ message code, response = .error message code) ∨
      (response = bareAck kind ∧ kind.hasBareAck = true) ∨
      decodeAwaited kind payload = .ok response := by
  unfold decode at h
  split at h
  · cases h
    exact Or.inl ⟨_, _, rfl⟩
  · split at h
    · split at h
      · next bare =>
          cases h
          exact Or.inr (Or.inl ⟨rfl, (Bool.and_eq_true_iff.mp bare).2⟩)
      · obtain ⟨message, -, rfl⟩ := map_eq_ok h
        exact Or.inl ⟨_, _, rfl⟩
    · split at h
      · cases h
      · exact Or.inr (Or.inr h)

theorem value_le_of_decode (h : decode code payload kind = .ok (.found siblings vclock)) :
    ∀ sibling ∈ siblings, sibling.value.length ≤ payload.length := by
  rcases decode_cases h with ⟨_, _, other⟩ | ⟨other, -⟩ | awaited
  · cases other
  · cases kind <;> cases other
  · cases kind with
    | get =>
        obtain ⟨message, read, found⟩ := map_eq_ok awaited
        cases found
        refine List.forall_mem_map.mpr ?_
        exact keeps_getResp.decode (List.forall_mem_nil _) (Nat.le_refl _) (record_eq_ok read)
    | setFetch =>
        obtain ⟨message, -, fetched⟩ := bind_eq_ok awaited
        unfold ofSet at fetched
        split at fetched
        · cases fetched
        · split at fetched <;> cases fetched
    | delete => cases awaited
    | put | setUpdate | counterFetch | counterUpdate =>
        obtain ⟨message, -, other⟩ := map_eq_ok awaited
        cases other

theorem ofSet_of_decode {members : List Bytes} {context : Option Bytes}
    (h : decode code payload kind = .ok (.set members context)) :
    ∃ message : Message.DtFetchResp, Protobuf.Message.decode payload = .ok message ∧
      ofSet message = .ok (.set members context) := by
  rcases decode_cases h with ⟨_, _, other⟩ | ⟨other, -⟩ | awaited
  · cases other
  · cases kind <;> cases other
  · cases kind with
    | setFetch =>
        obtain ⟨message, read, fetched⟩ := bind_eq_ok awaited
        exact ⟨message, record_eq_ok read, fetched⟩
    | delete => cases awaited
    | get | put | setUpdate | counterFetch | counterUpdate =>
        obtain ⟨message, -, other⟩ := map_eq_ok awaited
        cases other

theorem members_of_ofSet {message : Message.DtFetchResp} {members : List Bytes}
    {context : Option Bytes} (h : ofSet message = .ok (.set members context)) :
    members = Members.distinct (message.value.getD {}).setValue := by
  unfold ofSet at h
  split at h
  · next none =>
      cases h
      rw [none]
      rfl
  · next value some =>
      split at h
      · cases h
      · cases h
        rw [some, Option.getD_some]

theorem nodup_of_decode {members : List Bytes} {context : Option Bytes}
    (h : decode code payload kind = .ok (.set members context)) : members.Nodup := by
  obtain ⟨message, -, fetched⟩ := ofSet_of_decode h
  rw [members_of_ofSet fetched]
  exact Members.nodup_distinct _

theorem fatal_of_record {ρ : Type} [Protobuf.Message ρ] {payload : Bytes} {why : Failure}
    (h : record (ρ := ρ) payload = .error why) : why.kind.isFatalToConnection = true := by
  unfold record at h
  split at h
  · cases h
  · cases h
    rfl

theorem fatal_of_decodeAwaited {kind : RequestKind} {payload : Bytes} {why : Failure}
    (h : decodeAwaited kind payload = .error why) :
    why.kind.isFatalToConnection = true := by
  cases kind with
  | delete => cases h
  | setFetch =>
      rcases bind_eq_error h with unread | ⟨message, -, unfit⟩
      · exact fatal_of_record unread
      · unfold ofSet at unfit
        split at unfit
        · cases unfit
        · split at unfit
          · cases unfit
            rfl
          · cases unfit
  | get | put | setUpdate | counterFetch | counterUpdate => exact fatal_of_record (map_eq_error h)

theorem fatal_of_decode {code : UInt8} {payload : Bytes} {kind : RequestKind} {why : Failure}
    (h : decode code payload kind = .error why) :
    why.kind.isFatalToConnection = true := by
  unfold decode at h
  split at h
  · cases h
  · split at h
    · split at h
      · cases h
      · exact fatal_of_record (map_eq_error h)
    · split at h
      · cases h
        rfl
      · exact fatal_of_decodeAwaited h

end Response

namespace Frame

theorem payload_lt_of_decode {bytes rest : Bytes} {frame : Frame}
    (h : decode bytes = .complete frame rest) : frame.payload.length < maxLength := by
  unfold decode at h
  split at h
  · next a b c d code body =>
      have taken := List.length_take_le (wordValue a b c d - 1) body
      dsimp only at h
      split at h
      · cases h
      · split at h
        · cases h
        · split at h
          · cases h
          · cases h
            dsimp only
            omega
  · cases h

theorem fatal_of_refused {bytes : Bytes} {why : Failure}
    (h : decode bytes = .refused why) : why.kind.isFatalToConnection = true := by
  unfold decode at h
  split at h
  · dsimp only at h
    split at h
    · cases h
      rfl
    · split at h
      · cases h
        rfl
      · split at h <;> cases h
  · cases h

theorem fatal_of_stream {bytes : Bytes} {why : Failure}
    (h : (reader.stream bytes).2 = .refused why) :
    why.kind.isFatalToConnection = true := by
  induction bytes using Reader.stream.induct reader with
  | case1 bytes read =>
      rw [Reader.stream_of_incomplete _ read] at h
      cases h
  | case2 bytes why' read =>
      rw [Reader.stream_of_refused _ read] at h
      cases h
      exact fatal_of_refused read
  | case3 bytes frame rest read _ _ _ _ ih =>
      rw [Reader.stream_of_complete _ read] at h
      exact ih h

end Frame

end Values

end Store

end ReadThrough
