import Mathlib.Algebra.Group.Nat.Defs
import ReadThrough.Protobuf.Message

namespace ReadThrough.Protobuf

namespace Varint

def limit : Nat := 18446744073709551616

/-- A number as it may be spelled: seven bits to a byte, the lowest first, and a high bit on every
byte but the last. It need not be as short as it could be. -/
inductive Spells : Nat → Bytes → Prop where
  | last {b : UInt8} : b < 128 → Spells b.toNat [b]
  | more {b : UInt8} {n : Nat} {bytes : Bytes} : ¬ b < 128 → Spells n bytes →
      Spells (b.toNat - 128 + 128 * n) (b :: bytes)

theorem spells_encode (n : Nat) : Spells n (encode n) := by
  fun_induction encode n with
  | case1 n small =>
      have value : (UInt8.ofNat n).toNat = n :=
        UInt8.toNat_ofNat_of_lt' (Nat.lt_trans small (by decide))
      have low : UInt8.ofNat n < 128 := UInt8.lt_iff_toNat_lt.mpr (by rw [value]; exact small)
      have spelled := Spells.last low
      rwa [value] at spelled
  | case2 n large ih =>
      have value : (UInt8.ofNat (n % 128 + 128)).toNat = n % 128 + 128 :=
        UInt8.toNat_ofNat_of_lt' (Nat.add_lt_add_right (Nat.mod_lt n (by decide)) 128)
      have high : ¬ UInt8.ofNat (n % 128 + 128) < 128 := by
        rw [UInt8.lt_iff_toNat_lt, value]
        exact Nat.not_lt.mpr (Nat.le_add_left _ _)
      have spelled := Spells.more high ih
      rwa [value, Nat.add_sub_cancel, Nat.mod_add_div] at spelled

theorem decodeFrom_spells {taken n : Nat} {bytes : Bytes} (h : Spells n bytes)
    (le : taken + bytes.length ≤ 10) (lt : n < 2 ^ (64 - 7 * taken)) (rest : Bytes) :
    decodeFrom taken (bytes ++ rest) = .ok (n, rest) := by
  induction h generalizing taken with
  | @last b low =>
      -- the tenth byte has but one bit to give
      have last : ¬ (taken = 9 ∧ 1 < b) := by
        rintro ⟨rfl, above⟩
        exact absurd (UInt8.lt_iff_toNat_lt.mp above) (Nat.not_lt.mpr (Nat.le_of_lt_succ lt))
      simp only [List.cons_append, List.nil_append, decodeFrom]
      rw [if_pos low, if_neg last]
  | @more b n bytes high spelled ih =>
      rw [List.length_cons] at le
      have filled : 0 < bytes.length := by cases spelled <;> exact Nat.succ_pos _
      have split : 2 ^ (64 - 7 * taken) = 128 * 2 ^ (64 - 7 * (taken + 1)) := by
        rw [show 64 - 7 * taken = 7 + (64 - 7 * (taken + 1)) by omega, Nat.pow_add]
      have later := @ih (taken + 1) (by omega) (by omega)
      simp only [List.cons_append, decodeFrom]
      rw [if_neg high, if_neg (by omega), later]
      rfl

theorem size_le_of_lt {taken n : Nat} (le : taken ≤ 9) (lt : n < 2 ^ (64 - 7 * taken)) :
    taken + size n ≤ 10 := by
  fun_induction size n generalizing taken with
  | case1 n small => omega
  | case2 n large ih =>
      have more : taken ≠ 9 := by
        rintro rfl
        omega
      have split : 2 ^ (64 - 7 * taken) = 128 * 2 ^ (64 - 7 * (taken + 1)) := by
        rw [show 64 - 7 * taken = 7 + (64 - 7 * (taken + 1)) by omega, Nat.pow_add]
      have later := @ih (taken + 1) (by omega) (Nat.div_lt_of_lt_mul (split ▸ lt))
      omega

structure Spelling (n : Nat) (bytes : Bytes) : Prop where
  spells : Spells n bytes
  length_le : bytes.length ≤ 10
  lt : n < limit

theorem Spelling.decode {n : Nat} {bytes : Bytes} (h : Spelling n bytes) (rest : Bytes) :
    decode (bytes ++ rest) = .ok (n, rest) :=
  decodeFrom_spells h.spells (by rw [Nat.zero_add]; exact h.length_le) h.lt rest

theorem spelling_encode {n : Nat} (lt : n < limit) : Spelling n (encode n) where
  spells := spells_encode n
  length_le := by
    have le := size_le_of_lt (Nat.zero_le 9) lt
    rwa [Nat.zero_add, ← length_encode] at le
  lt := lt

theorem decode_encode {n : Nat} (lt : n < limit) (rest : Bytes) :
    decode (encode n ++ rest) = .ok (n, rest) :=
  (spelling_encode lt).decode rest

theorem size_add {n k : Nat} (lt : k < 8) : size (8 * n + k) = size (8 * n) := by
  rw [size, size.eq_def (8 * n), show (8 * n + k) / 128 = 8 * n / 128 by omega]
  by_cases small : 8 * n < 128
  · rw [if_pos small, if_pos (by omega)]
  · rw [if_neg small, if_neg (by omega)]

end Varint

def numberLimit : Nat := 536870912

section Keys

variable {number : Nat}

theorem length_key (number : Nat) (wire : WireType) :
    (key number wire).length = keySize number := by
  rw [key, Varint.length_encode, keySize, Varint.size_add (by cases wire <;> decide)]

structure KeySpelling (number : Nat) (wire : WireType) (bytes : Bytes) : Prop where
  spelling : Varint.Spelling (8 * number + wireCode wire) bytes
  positive : 0 < number
  lt : number < numberLimit

theorem KeySpelling.readKey {wire : WireType} {bytes : Bytes} (h : KeySpelling number wire bytes)
    (rest : Bytes) : readKey (bytes ++ rest) = .ok (number, wire, rest) := by
  have code : wireCode wire < 8 := by cases wire <;> decide
  have lt := h.lt
  have fits : 8 * number + wireCode wire < keyLimit := by
    simp only [numberLimit, keyLimit] at lt ⊢
    omega
  have number' : (8 * number + wireCode wire) / 8 = number := by omega
  have wire' : (8 * number + wireCode wire) % 8 = wireCode wire := by omega
  simp only [Protobuf.readKey, h.spelling.decode]
  rw [if_neg (Nat.not_le.mpr fits), wire', number']
  simp only [wireType?_wireCode, if_neg (Nat.ne_of_gt h.positive)]

theorem keySpelling_key (positive : 0 < number) (lt : number < numberLimit) (wire : WireType) :
    KeySpelling number wire (key number wire) where
  spelling := by
    have code : wireCode wire < 8 := by cases wire <;> decide
    refine Varint.spelling_encode ?_
    simp only [numberLimit, Varint.limit] at lt ⊢
    omega
  positive := positive
  lt := lt

theorem readKey_key (positive : 0 < number) (lt : number < numberLimit) (wire : WireType)
    (rest : Bytes) : readKey (key number wire ++ rest) = .ok (number, wire, rest) :=
  (keySpelling_key positive lt wire).readKey rest

end Keys

/-- The codec reads back what it has written, where records may stand so deep in one another. -/
structure Codec.Faithful {α : Type} (codec : Codec α) (depth : Nat) : Prop where
  size : ∀ value, codec.size value = (codec.encode value).length
  merge : ∀ {budget value}, depth ≤ budget → (codec.encode value).length < Varint.limit →
    ∀ rest, codec.merge budget codec.blank (codec.encode value ++ rest) = .ok (value, rest)

def Codec.Merges {α : Type} (codec : Codec α) (depth : Nat) (old value new : α) : Prop :=
  ∀ {budget}, depth ≤ budget → (codec.encode value).length < Varint.limit →
    ∀ rest, codec.merge budget old (codec.encode value ++ rest) = .ok (new, rest)

section Codecs

variable {α : Type} {depth : Nat}

theorem faithful_number {blank : α} {toNat : α → Nat} {ofNat : Nat → α}
    (fits : ∀ value, toNat value < Varint.limit) (back : ∀ value, ofNat (toNat value) = value) :
    (Codec.number blank toNat ofNat).Faithful depth where
  size value := (Varint.length_encode _).symm
  merge {budget value} _ _ rest := by
    change (Varint.decode (Varint.encode (toNat value) ++ rest)).map _ = _
    rw [Varint.decode_encode (fits value)]
    simp only [Except.map, back]

theorem uint32_lt (n : UInt32) : n.toNat < Varint.limit :=
  Nat.lt_trans n.toNat_lt (by decide)

theorem faithful_uint32 : Codec.uint32.Faithful depth :=
  faithful_number uint32_lt fun _ => UInt32.ofNat_toNat

theorem bool_lt (b : Bool) : b.toNat < Varint.limit :=
  Nat.lt_trans b.toNat_lt (by decide)

theorem faithful_bool : Codec.bool.Faithful depth :=
  faithful_number bool_lt fun b => by cases b <;> rfl

theorem zigzag_lt (n : Int64) : zigzag n < Varint.limit := by
  have lower := n.le_toInt
  have upper := n.toInt_lt
  unfold zigzag Varint.limit
  split <;> omega

theorem unzigzag_zigzag (n : Int64) : unzigzag (zigzag n) = n := by
  have lower := n.le_toInt
  unfold zigzag unzigzag
  split
  · rw [if_neg (by omega)]
    rw [show -(((-2 * n.toInt - 1).toNat / 2 : Nat) : Int) - 1 = n.toInt by omega]
    exact Int64.ofInt_toInt n
  · rw [if_pos (by omega)]
    rw [show (((2 * n.toInt).toNat / 2 : Nat) : Int) = n.toInt by omega]
    exact Int64.ofInt_toInt n

theorem faithful_sint64 : Codec.sint64.Faithful depth :=
  faithful_number zigzag_lt unzigzag_zigzag

theorem faithful_bytes : Codec.bytes.Faithful depth where
  size value := by
    change _ = (Varint.encode value.length ++ value).length
    rw [List.length_append, Varint.length_encode]
    rfl
  merge {budget value} _ short rest := by
    have short : (Varint.encode value.length ++ value).length < Varint.limit := short
    rw [List.length_append] at short
    change readDelimited ((Varint.encode value.length ++ value) ++ rest) = _
    rw [List.append_assoc, readDelimited, Varint.decode_encode (by omega)]
    simp [takeBytes]

end Codecs

namespace Message

variable {ρ : Type}

inductive Restores (depth : Nat) (record : ρ) : ρ → List (Field ρ) → Prop where
  | done : Restores depth record record []
  | single {α : Type} {before : ρ} {number : Nat} {codec : Codec α} {get : ρ → α}
      {put : ρ → α → ρ} {fields : List (Field ρ)} : codec.Faithful depth →
      get before = codec.blank → Restores depth record (put before (get record)) fields →
      Restores depth record before (.single number codec get put :: fields)
  | optional {α : Type} {before : ρ} {number : Nat} {codec : Codec α} {get : ρ → Option α}
      {put : ρ → Option α → ρ} {fields : List (Field ρ)} : codec.Faithful depth →
      get before = none → put before none = before →
      Restores depth record (put before (get record)) fields →
      Restores depth record before (.optional number codec get put :: fields)
  | many {α : Type} {before : ρ} {number : Nat} {codec : Codec α} {get : ρ → List α}
      {put : ρ → List α → ρ} {fields : List (Field ρ)} : codec.Faithful depth →
      put before [] = before → (∀ values, get (put before values) = values) →
      (∀ values more, put (put before values) more = put before more) →
      Restores depth record (put before (get record)) fields →
      Restores depth record before (.many number codec get put :: fields)

inductive Joins (depth : Nat) (record : ρ) : ρ → List (Field ρ) → ρ → Prop where
  | done {before : ρ} : Joins depth record before [] before
  | single {α : Type} {before after : ρ} {number : Nat} {codec : Codec α} {get : ρ → α}
      {put : ρ → α → ρ} {fields : List (Field ρ)} {value : α} :
      codec.Merges depth (get before) (get record) value →
      Joins depth record (put before value) fields after →
      Joins depth record before (.single number codec get put :: fields) after
  | absent {α : Type} {before after : ρ} {number : Nat} {codec : Codec α} {get : ρ → Option α}
      {put : ρ → Option α → ρ} {fields : List (Field ρ)} : get record = none →
      Joins depth record before fields after →
      Joins depth record before (.optional number codec get put :: fields) after
  | present {α : Type} {before after : ρ} {number : Nat} {codec : Codec α} {get : ρ → Option α}
      {put : ρ → Option α → ρ} {fields : List (Field ρ)} {held value : α} :
      get record = some held → codec.Merges depth ((get before).getD codec.blank) held value →
      Joins depth record (put before (some value)) fields after →
      Joins depth record before (.optional number codec get put :: fields) after
  | many {α : Type} {before after : ρ} {number : Nat} {codec : Codec α} {get : ρ → List α}
      {put : ρ → List α → ρ} {fields : List (Field ρ)} : codec.Faithful depth →
      put before (get before) = before → (∀ values, get (put before values) = values) →
      (∀ values more, put (put before values) more = put before more) →
      Joins depth record (put before (get before ++ get record)) fields after →
      Joins depth record before (.many number codec get put :: fields) after

theorem Restores.size {depth : Nat} {record before : ρ} {fields : List (Field ρ)}
    (h : Restores depth record before fields) :
    (fields.map fun field => field.size record).foldr (· + ·) 0 =
      (fields.flatMap fun field => field.encode record).length := by
  have length : ∀ {α : Type} {codec : Codec α}, codec.Faithful depth → ∀ number value,
      codec.fieldSize number value = (codec.encodeField number value).length := by
    intro α codec faithful number value
    rw [Codec.encodeField, List.length_append, length_key, ← faithful.size]
    rfl
  induction h with
  | done => rfl
  | @single α before number codec get put fields faithful _ _ ih =>
      rw [List.map_cons, List.foldr_cons, List.flatMap_cons, List.length_append, ih]
      exact congrArg (· + _) (length faithful number (get record))
  | @optional α before number codec get put fields faithful _ _ _ ih =>
      rw [List.map_cons, List.foldr_cons, List.flatMap_cons, List.length_append, ih]
      refine congrArg (· + _) ?_
      change (get record).elim 0 _ = ((get record).elim [] _).length
      cases get record with
      | none => rfl
      | some value => exact length faithful number value
  | @many α before number codec get put fields faithful _ _ _ _ ih =>
      rw [List.map_cons, List.foldr_cons, List.flatMap_cons, List.length_append, ih]
      refine congrArg (· + _) ?_
      change ((get record).map _).foldr (· + ·) 0 = ((get record).flatMap _).length
      induction get record with
      | nil => rfl
      | cons value values ih' =>
          rw [List.map_cons, List.foldr_cons, List.flatMap_cons, List.length_append, ih',
            length faithful number value]

variable [Message ρ] {depth budget : Nat} {record before : ρ} {rest : Bytes}

structure Known (field : Field ρ) : Prop where
  found : (fields (ρ := ρ)).find? (fun other => other.number = field.number) = some field
  positive : 0 < field.number
  lt : field.number < numberLimit

theorem mergeUntil_encodeField {α : Type} {codec : Codec α} {field : Field ρ} {old value new : α}
    (put : α → ρ) (known : Known field) (merges : codec.Merges depth old value new)
    (le : depth ≤ budget)
    (merge : ∀ bytes, field.merge budget codec.wire before bytes =
      codec.mergeInto budget codec.wire old put bytes)
    (short : (codec.encodeField field.number value).length < Varint.limit)
    {behind : Nat} (enough : behind ≤ rest.length) :
    mergeUntil behind budget before (codec.encodeField field.number value ++ rest) =
      mergeUntil behind budget (put new) rest := by
  have filled : 0 < (key field.number codec.wire).length := by
    have read := readKey_shorter (readKey_key known.positive known.lt codec.wire [])
    rw [List.append_nil] at read
    exact Nat.lt_of_le_of_lt (Nat.zero_le _) read
  rw [Codec.encodeField] at short ⊢
  rw [List.length_append] at short
  rw [List.append_assoc]
  refine mergeUntil_field ?_ (readKey_key known.positive known.lt _ _) ?_
  · rw [List.length_append, List.length_append]
    omega
  · rw [mergeField, known.found]
    dsimp only
    rw [merge, Codec.mergeInto, if_neg (not_not_intro rfl), merges le (by omega)]
    rfl

theorem mergeUntil_many {α : Type} {number : Nat} {codec : Codec α} {get : ρ → List α}
    {put : ρ → List α → ρ} (faithful : codec.Faithful depth)
    (held : ∀ values, get (put before values) = values)
    (again : ∀ values more, put (put before values) more = put before more)
    (known : Known (.many number codec get put)) (le : depth ≤ budget) {behind : Nat}
    (enough : behind ≤ rest.length) (read values : List α)
    (short : (values.flatMap (codec.encodeField number)).length < Varint.limit) :
    mergeUntil behind budget (put before read)
        (values.flatMap (codec.encodeField number) ++ rest) =
      mergeUntil behind budget (put before (read ++ values)) rest := by
  induction values generalizing read with
  | nil => rw [List.append_nil]; rfl
  | cons value values ih =>
      rw [List.flatMap_cons, List.length_append] at short
      have short' : (codec.encodeField number value).length < Varint.limit := by omega
      rw [List.flatMap_cons, List.append_assoc, List.append_cons, ← ih (read ++ [value]) (by omega)]
      refine mergeUntil_encodeField (fun v => put before (read ++ [v])) known faithful.merge le
        ?_ short' (by rw [List.length_append]; omega)
      intro bytes
      change codec.mergeInto budget codec.wire codec.blank
        (fun v => put (put before read) (get (put before read) ++ [v])) bytes = _
      simp only [held, again]

theorem Joins.mergeUntil {parts : List (Field ρ)} {after : ρ}
    (h : Joins depth record before parts after) (known : ∀ field ∈ parts, Known field)
    (le : depth ≤ budget)
    (short : (parts.flatMap fun field => field.encode record).length < Varint.limit)
    {behind : Nat} (enough : behind ≤ rest.length) :
    mergeUntil behind budget before ((parts.flatMap fun field => field.encode record) ++ rest) =
      mergeUntil behind budget after rest := by
  have further : ∀ bytes : Bytes, behind ≤ (bytes ++ rest).length := fun bytes => by
    rw [List.length_append]
    omega
  induction h with
  | done => rfl
  | @single α before after number codec get put parts value merges _ ih =>
      obtain ⟨first, others⟩ := List.forall_mem_cons.mp known
      rw [List.flatMap_cons, List.length_append] at short
      have short' : (codec.encodeField number (get record)).length < Varint.limit :=
        Nat.lt_of_le_of_lt (Nat.le_add_right _ _) short
      rw [List.flatMap_cons, List.append_assoc, ← ih others (by omega)]
      exact mergeUntil_encodeField (put before) first merges le (fun _ => rfl) short' (further _)
  | @absent α before after number codec get put parts none _ ih =>
      obtain ⟨-, others⟩ := List.forall_mem_cons.mp known
      have nothing : (Field.optional number codec get put).encode record = [] := by
        change (get record).elim [] _ = []
        rw [none]
        rfl
      rw [List.flatMap_cons, nothing, List.nil_append] at short ⊢
      exact ih others short
  | @present α before after number codec get put parts held value some merges _ ih =>
      obtain ⟨first, others⟩ := List.forall_mem_cons.mp known
      have written : (Field.optional number codec get put).encode record =
          codec.encodeField number held := by
        change (get record).elim [] _ = _
        rw [some]
        rfl
      rw [List.flatMap_cons, written, List.length_append] at short
      have short' : (codec.encodeField number held).length < Varint.limit :=
        Nat.lt_of_le_of_lt (Nat.le_add_right _ _) short
      rw [List.flatMap_cons, written, List.append_assoc, ← ih others (by omega)]
      exact mergeUntil_encodeField (fun v => put before (Option.some v)) first merges le
        (fun _ => rfl) short' (further _)
  | @many α before after number codec get put parts faithful same held again _ ih =>
      obtain ⟨first, others⟩ := List.forall_mem_cons.mp known
      rw [List.flatMap_cons, List.length_append] at short
      rw [List.flatMap_cons, List.append_assoc, ← ih others (by omega)]
      change ((get record).flatMap (codec.encodeField number)).length + _ < _ at short
      have all := mergeUntil_many faithful held again first le
        (further (parts.flatMap fun field => field.encode record)) (get before) (get record)
        (Nat.lt_of_le_of_lt (Nat.le_add_right _ _) short)
      rwa [same] at all

omit [Message ρ] in
theorem Restores.joins {parts : List (Field ρ)} (h : Restores depth record before parts) :
    Joins depth record before parts record := by
  induction h with
  | done => exact .done
  | @single α before number codec get put parts faithful clean _ ih =>
      refine .single (fun le short rest => ?_) ih
      rw [clean]
      exact faithful.merge le short rest
  | @optional α before number codec get put parts faithful clean blank _ ih =>
      cases held : get record with
      | none =>
          rw [held, blank] at ih
          exact .absent held ih
      | some value =>
          rw [held] at ih
          refine .present held (fun le short rest => ?_) ih
          rw [clean]
          exact faithful.merge le short rest
  | @many α before number codec get put parts faithful blank held again _ ih =>
      have clean : get before = [] := (congrArg get blank).symm.trans (held [])
      refine .many faithful (by rw [clean, blank]) held again ?_
      rwa [clean, List.nil_append]

theorem Restores.mergeUntil {parts : List (Field ρ)} (h : Restores depth record before parts)
    (known : ∀ field ∈ parts, Known field) (le : depth ≤ budget)
    (short : (parts.flatMap fun field => field.encode record).length < Varint.limit)
    (rest : Bytes) : mergeUntil rest.length budget before
      ((parts.flatMap fun field => field.encode record) ++ rest) = .ok (record, rest) := by
  rw [h.joins.mergeUntil known le short (Nat.le_refl _)]
  exact mergeUntil_done budget record rest

structure Faithful (ρ : Type) [Message ρ] (depth : Nat) : Prop where
  distinct : ((fields (ρ := ρ)).map fun field => field.number).Nodup
  bounded : ∀ number ∈ (fields (ρ := ρ)).map fun field => field.number,
    0 < number ∧ number < numberLimit
  restores : ∀ record : ρ, Restores depth record blank fields

omit [Message ρ] in
theorem find?_number {parts : List (Field ρ)} (distinct : (parts.map (·.number)).Nodup)
    {field : Field ρ} (hm : field ∈ parts) :
    parts.find? (fun other => other.number = field.number) = some field := by
  induction parts with
  | nil => cases hm
  | cons other parts ih =>
      obtain ⟨apart, distinct⟩ := List.nodup_cons.mp distinct
      rcases List.mem_cons.mp hm with rfl | later
      · exact List.find?_cons_of_pos (by simp)
      · rw [List.find?_cons_of_neg]
        · exact ih distinct later
        · intro same
          exact apart (List.mem_map.mpr ⟨field, later, (of_decide_eq_true same).symm⟩)

namespace Faithful

theorem known (h : Faithful ρ depth) : ∀ field ∈ fields (ρ := ρ), Known field := by
  intro field hm
  obtain ⟨positive, lt⟩ := h.bounded field.number (List.mem_map_of_mem hm)
  exact ⟨find?_number h.distinct hm, positive, lt⟩

theorem length_encode (h : Faithful ρ depth) (record : ρ) :
    (encode record).length = size record :=
  (h.restores record).size.symm

theorem mergeUntil (h : Faithful ρ depth) (le : depth ≤ budget)
    (short : (encode record).length < Varint.limit) (rest : Bytes) :
    Message.mergeUntil rest.length budget blank (encode record ++ rest) = .ok (record, rest) :=
  (h.restores record).mergeUntil h.known le short rest

theorem decode_encode (h : Faithful ρ depth) (le : depth ≤ maxDepth)
    (short : (encode record).length < Varint.limit) : decode (encode record) = .ok record := by
  have read := h.mergeUntil le short []
  rw [List.append_nil] at read
  change (Message.mergeUntil ([] : Bytes).length maxDepth blank (encode record)).map _ = _
  rw [read]
  rfl

theorem message (h : Faithful ρ depth) : (Codec.message : Codec ρ).Faithful (depth + 1) where
  size record := by
    change _ = (Varint.encode (size record) ++ encode record).length
    rw [List.length_append, Varint.length_encode, h.length_encode]
    rfl
  merge {budget record} le short rest := by
    have short : (Varint.encode (size record) ++ encode record).length < Varint.limit := short
    rw [List.length_append] at short
    have length := h.length_encode record
    change mergeDelimited budget blank ((Varint.encode (size record) ++ encode record) ++ rest) = _
    rw [List.append_assoc, mergeDelimited, if_neg (by omega), Varint.decode_encode (by omega)]
    dsimp only
    rw [List.length_append, length, if_neg (by omega), Nat.add_sub_cancel_left]
    exact h.mergeUntil (by omega) (by omega) rest

end Faithful

end Message

end ReadThrough.Protobuf
