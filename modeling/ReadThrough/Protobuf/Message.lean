import ReadThrough.Protobuf.Field

namespace ReadThrough.Protobuf

/-- How a value is written behind its key and how one that is read is merged into an earlier one.
`budget` bounds how deep records and groups may still stand in one another. -/
structure Codec (α : Type) where
  wire : WireType
  blank : α
  encode : α → Bytes
  size : α → Nat
  merge : (budget : Nat) → α → Bytes → Except RecordFault (α × Bytes)
  shorter : ∀ {budget old bytes value rest}, merge budget old bytes = .ok (value, rest) →
    rest.length ≤ bytes.length

structure Field (ρ : Type) where
  number : Nat
  encode : ρ → Bytes
  size : ρ → Nat
  merge : (budget : Nat) → WireType → ρ → Bytes → Except RecordFault (ρ × Bytes)
  shorter : ∀ {budget wire old bytes record rest},
    merge budget wire old bytes = .ok (record, rest) → rest.length ≤ bytes.length

section Fields

variable {ρ α : Type}

def Codec.mergeInto (codec : Codec α) (budget : Nat) (wire : WireType) (old : α)
    (put : α → ρ) (bytes : Bytes) : Except RecordFault (ρ × Bytes) :=
  if wire ≠ codec.wire then .error (.wireType wire codec.wire)
  else (codec.merge budget old bytes).map fun (value, rest) => (put value, rest)

theorem Codec.mergeInto_shorter {codec : Codec α} {budget : Nat} {wire : WireType} {old : α}
    {put : α → ρ} {bytes : Bytes} {record : ρ} {rest : Bytes}
    (h : codec.mergeInto budget wire old put bytes = .ok (record, rest)) :
    rest.length ≤ bytes.length := by
  unfold Codec.mergeInto at h
  split at h
  · simp at h
  · cases hm : codec.merge budget old bytes with
    | error fault => simp [hm, Except.map] at h
    | ok p =>
        simp only [hm, Except.map, Except.ok.injEq, Prod.mk.injEq] at h
        exact h.2 ▸ codec.shorter hm

def Codec.encodeField (codec : Codec α) (number : Nat) (value : α) : Bytes :=
  key number codec.wire ++ codec.encode value

def Codec.fieldSize (codec : Codec α) (number : Nat) (value : α) : Nat :=
  keySize number + codec.size value

def Field.single (number : Nat) (codec : Codec α) (get : ρ → α) (put : ρ → α → ρ) : Field ρ where
  number := number
  encode record := codec.encodeField number (get record)
  size record := codec.fieldSize number (get record)
  merge budget wire record bytes := codec.mergeInto budget wire (get record) (put record) bytes
  shorter := Codec.mergeInto_shorter

def Field.optional (number : Nat) (codec : Codec α) (get : ρ → Option α)
    (put : ρ → Option α → ρ) : Field ρ where
  number := number
  encode record := (get record).elim [] (codec.encodeField number)
  size record := (get record).elim 0 (codec.fieldSize number)
  merge budget wire record bytes :=
    codec.mergeInto budget wire ((get record).getD codec.blank) (fun v => put record (some v)) bytes
  shorter := Codec.mergeInto_shorter

def Field.many (number : Nat) (codec : Codec α) (get : ρ → List α) (put : ρ → List α → ρ) :
    Field ρ where
  number := number
  encode record := (get record).flatMap (codec.encodeField number)
  size record := ((get record).map (codec.fieldSize number)).foldr (· + ·) 0
  merge budget wire record bytes :=
    codec.mergeInto budget wire codec.blank (fun v => put record (get record ++ [v])) bytes
  shorter := Codec.mergeInto_shorter

end Fields

class Message (ρ : Type) where
  blank : ρ
  fields : List (Field ρ)

namespace Message

variable {ρ : Type} [Message ρ]

def encode (record : ρ) : Bytes :=
  (fields (ρ := ρ)).flatMap fun field => field.encode record

def size (record : ρ) : Nat :=
  ((fields (ρ := ρ)).map fun field => field.size record).foldr (· + ·) 0

def mergeField (budget number : Nat) (wire : WireType) (record : ρ) (bytes : Bytes) :
    Except RecordFault (ρ × Bytes) :=
  match (fields (ρ := ρ)).find? fun field => field.number = number with
  | some field => field.merge budget wire record bytes
  | none => (skip budget number wire bytes).map fun rest => (record, rest)

theorem mergeField_shorter {budget number : Nat} {wire : WireType} {record : ρ} {bytes : Bytes}
    {merged : ρ} {rest : Bytes}
    (h : mergeField budget number wire record bytes = .ok (merged, rest)) :
    rest.length ≤ bytes.length := by
  unfold mergeField at h
  split at h
  · next field _ => exact field.shorter h
  · cases hs : skip budget number wire bytes with
    | error fault => simp [hs, Except.map] at h
    | ok r =>
        simp only [hs, Except.map, Except.ok.injEq, Prod.mk.injEq] at h
        exact h.2 ▸ skip_shorter hs

/-- Merges fields until only `behind` bytes are left. A field that reaches further is noticed once it
has been read. -/
def mergeUntil (behind budget : Nat) (record : ρ) (bytes : Bytes) :
    Except RecordFault (ρ × Bytes) :=
  if (bytes.drop behind).isEmpty then
    if bytes.length = behind then .ok (record, bytes) else .error .lengthExceeded
  else
    match hk : readKey bytes with
    | .error fault => .error fault
    | .ok (number, wire, rest) =>
        match hm : mergeField budget number wire record rest with
        | .error fault => .error fault
        | .ok (merged, rest') =>
            have := readKey_shorter hk
            have := mergeField_shorter hm
            mergeUntil behind budget merged rest'
termination_by bytes.length

theorem length_of_mergeUntil {behind budget : Nat} {record : ρ} {bytes : Bytes} {merged : ρ}
    {rest : Bytes} (h : mergeUntil behind budget record bytes = .ok (merged, rest)) :
    rest.length = behind := by
  fun_induction mergeUntil behind budget record bytes with
  | case1 record bytes _ hb => cases h; exact hb
  | case2 => simp at h
  | case3 => simp at h
  | case4 => simp at h
  | case5 record bytes _ number wire r _ merged r' _ _ _ ih => exact ih h

theorem mergeUntil_done (budget : Nat) (record : ρ) (bytes : Bytes) :
    mergeUntil bytes.length budget record bytes = .ok (record, bytes) := by
  rw [mergeUntil]
  simp

theorem mergeUntil_field {behind budget number : Nat} {wire : WireType} {record merged : ρ}
    {bytes rest rest' : Bytes} (hb : behind < bytes.length)
    (hk : readKey bytes = .ok (number, wire, rest))
    (hm : mergeField budget number wire record rest = .ok (merged, rest')) :
    mergeUntil behind budget record bytes = mergeUntil behind budget merged rest' := by
  rw [mergeUntil]
  have : (bytes.drop behind).isEmpty = false := by
    cases hd : bytes.drop behind with
    | nil =>
        have := List.drop_eq_nil_iff.mp hd
        omega
    | cons => rfl
  simp only [this, Bool.false_eq_true, if_false]
  split
  · simp_all
  · next number' wire' r hk' =>
      rw [hk] at hk'
      cases hk'
      split
      · simp_all
      · next hm' =>
          rw [hm] at hm'
          cases hm'
          rfl

def maxDepth : Nat := 100

def merge (record : ρ) (bytes : Bytes) : Except RecordFault ρ :=
  (mergeUntil 0 maxDepth record bytes).map Prod.fst

def decode (bytes : Bytes) : Except RecordFault ρ :=
  merge blank bytes

def encodeDelimited (record : ρ) : Bytes :=
  Varint.encode (size record) ++ encode record

def mergeDelimited (budget : Nat) (record : ρ) (bytes : Bytes) : Except RecordFault (ρ × Bytes) :=
  if budget = 0 then .error .recursionLimit
  else
    match Varint.decode bytes with
    | .error fault => .error fault
    | .ok (length, rest) =>
        if rest.length < length then .error .underflow
        else mergeUntil (rest.length - length) (budget - 1) record rest

theorem mergeDelimited_shorter {budget : Nat} {record : ρ} {bytes : Bytes} {merged : ρ}
    {rest : Bytes} (h : mergeDelimited budget record bytes = .ok (merged, rest)) :
    rest.length ≤ bytes.length := by
  unfold mergeDelimited at h
  split at h
  · simp at h
  · split at h
    · simp at h
    · next hv =>
        split at h
        · simp at h
        · have := Varint.decode_shorter hv
          have := length_of_mergeUntil h
          omega

end Message

def Codec.number {α : Type} (blank : α) (toNat : α → Nat) (ofNat : Nat → α) : Codec α where
  wire := .varint
  blank := blank
  encode value := Varint.encode (toNat value)
  size value := Varint.size (toNat value)
  merge _ _ bytes := (Varint.decode bytes).map fun (n, rest) => (ofNat n, rest)
  shorter := by
    intro budget old bytes value rest h
    cases hv : Varint.decode bytes with
    | error fault => simp [hv, Except.map] at h
    | ok p =>
        simp only [hv, Except.map, Except.ok.injEq, Prod.mk.injEq] at h
        exact h.2 ▸ Nat.le_of_lt (Varint.decode_shorter hv)

def Codec.uint32 : Codec UInt32 :=
  .number 0 UInt32.toNat UInt32.ofNat

def Codec.int32 : Codec Int32 :=
  .number 0 (fun n => (n.toInt % 18446744073709551616).toNat) fun n => Int32.ofNat n

def zigzag (n : Int64) : Nat :=
  if n.toInt < 0 then (-2 * n.toInt - 1).toNat else (2 * n.toInt).toNat

def unzigzag (n : Nat) : Int64 :=
  if n % 2 = 0 then Int64.ofInt (n / 2 : Nat) else Int64.ofInt (-(n / 2 : Nat) - 1)

def Codec.sint64 : Codec Int64 :=
  .number 0 zigzag unzigzag

def Codec.bool : Codec Bool :=
  .number false Bool.toNat fun n => n != 0

def Codec.bytes : Codec Bytes where
  wire := .lengthDelimited
  blank := []
  encode value := Varint.encode value.length ++ value
  size value := Varint.size value.length + value.length
  merge _ _ bytes := readDelimited bytes
  shorter h := Nat.le_of_lt (readDelimited_shorter h)

def Codec.message {ρ : Type} [Message ρ] : Codec ρ where
  wire := .lengthDelimited
  blank := Message.blank
  encode := Message.encodeDelimited
  size record := Varint.size (Message.size record) + Message.size record
  merge := Message.mergeDelimited
  shorter := Message.mergeDelimited_shorter

end ReadThrough.Protobuf
