import ReadThrough.Protobuf.Varint

namespace ReadThrough.Protobuf

def wireCode : WireType → Nat
  | .varint => 0
  | .sixtyFourBit => 1
  | .lengthDelimited => 2
  | .startGroup => 3
  | .endGroup => 4
  | .thirtyTwoBit => 5

def wireType? : Nat → Option WireType
  | 0 => some .varint
  | 1 => some .sixtyFourBit
  | 2 => some .lengthDelimited
  | 3 => some .startGroup
  | 4 => some .endGroup
  | 5 => some .thirtyTwoBit
  | _ => none

theorem wireType?_wireCode (wire : WireType) : wireType? (wireCode wire) = some wire := by
  cases wire <;> rfl

def key (number : Nat) (wire : WireType) : Bytes :=
  Varint.encode (8 * number + wireCode wire)

def keySize (number : Nat) : Nat :=
  Varint.size (8 * number)

def keyLimit : Nat := 4294967296

/-- Reads a key. It has to fit 32 bits, then its wire type is judged, then its number. -/
def readKey (bytes : Bytes) : Except RecordFault (Nat × WireType × Bytes) :=
  match Varint.decode bytes with
  | .error fault => .error fault
  | .ok (key, rest) =>
      if keyLimit ≤ key then .error (.invalidKey key)
      else
        match wireType? (key % 8) with
        | none => .error (.unknownWireType (key % 8))
        | some wire => if key / 8 = 0 then .error .tagZero else .ok (key / 8, wire, rest)

def takeBytes (count : Nat) (bytes : Bytes) : Except RecordFault (Bytes × Bytes) :=
  let taken := bytes.take count
  if taken.length < count then .error .underflow else .ok (taken, bytes.drop count)

def readDelimited (bytes : Bytes) : Except RecordFault (Bytes × Bytes) :=
  match Varint.decode bytes with
  | .error fault => .error fault
  | .ok (length, rest) => takeBytes length rest

def skipValue (wire : WireType) (bytes : Bytes) : Except RecordFault Bytes :=
  match wire with
  | .varint => (Varint.decode bytes).map Prod.snd
  | .sixtyFourBit => (takeBytes 8 bytes).map Prod.snd
  | .thirtyTwoBit => (takeBytes 4 bytes).map Prod.snd
  | .lengthDelimited => (readDelimited bytes).map Prod.snd
  | .startGroup | .endGroup => .error .unexpectedEndGroup

theorem readKey_shorter {bytes : Bytes} {number : Nat} {wire : WireType} {rest : Bytes}
    (h : readKey bytes = .ok (number, wire, rest)) : rest.length < bytes.length := by
  unfold readKey at h
  split at h
  · simp at h
  · next k r hv =>
      split at h
      · simp at h
      · split at h
        · simp at h
        · split at h
          · simp at h
          · cases h
            exact Varint.decode_shorter hv

theorem takeBytes_shorter {count : Nat} {bytes taken rest : Bytes}
    (h : takeBytes count bytes = .ok (taken, rest)) : rest.length ≤ bytes.length := by
  simp only [takeBytes] at h
  split at h
  · simp at h
  · cases h
    simp

theorem readDelimited_shorter {bytes taken rest : Bytes}
    (h : readDelimited bytes = .ok (taken, rest)) : rest.length < bytes.length := by
  unfold readDelimited at h
  split at h
  · simp at h
  · next hv =>
      have := Varint.decode_shorter hv
      have := takeBytes_shorter h
      omega

theorem snd_of_map {ε α : Type} {e : Except ε (α × Bytes)} {rest : Bytes}
    (h : e.map Prod.snd = .ok rest) : ∃ a, e = .ok (a, rest) := by
  cases e with
  | error fault => simp [Except.map] at h
  | ok p =>
      simp only [Except.map, Except.ok.injEq] at h
      exact ⟨p.1, by rw [← h]⟩

theorem skipValue_shorter {wire : WireType} {bytes rest : Bytes}
    (h : skipValue wire bytes = .ok rest) : rest.length ≤ bytes.length := by
  cases wire <;> simp only [skipValue] at h
  case varint =>
    obtain ⟨n, h⟩ := snd_of_map h
    exact Nat.le_of_lt (Varint.decode_shorter h)
  case sixtyFourBit => obtain ⟨t, h⟩ := snd_of_map h; exact takeBytes_shorter h
  case thirtyTwoBit => obtain ⟨t, h⟩ := snd_of_map h; exact takeBytes_shorter h
  case lengthDelimited =>
    obtain ⟨t, h⟩ := snd_of_map h
    exact Nat.le_of_lt (readDelimited_shorter h)
  all_goals simp at h

/-- Steps to the end of the group `number`, which stands inside the groups `outer`. The fields of a
group may stand `budget` levels deep below it. -/
def skipGroup (budget number : Nat) (outer : List Nat) (bytes : Bytes) :
    Except RecordFault Bytes :=
  match h : readKey bytes with
  | .error fault => .error fault
  | .ok (n, .endGroup, rest) =>
      if n ≠ number then .error .unexpectedEndGroup
      else
        match outer with
        | [] => .ok rest
        | m :: outer =>
            have := readKey_shorter h
            skipGroup (budget + 1) m outer rest
  | .ok (n, .startGroup, rest) =>
      if budget = 0 then .error .recursionLimit
      else
        have := readKey_shorter h
        skipGroup (budget - 1) n (number :: outer) rest
  | .ok (_, wire, rest) =>
      if budget = 0 then .error .recursionLimit
      else
        match hs : skipValue wire rest with
        | .error fault => .error fault
        | .ok behind =>
            have := readKey_shorter h
            have := skipValue_shorter hs
            skipGroup budget number outer behind
termination_by bytes.length

def skip (budget number : Nat) (wire : WireType) (bytes : Bytes) : Except RecordFault Bytes :=
  if budget = 0 then .error .recursionLimit
  else
    match wire with
    | .startGroup => skipGroup (budget - 1) number [] bytes
    | wire => skipValue wire bytes

theorem skipGroup_shorter {budget number : Nat} {outer : List Nat} {bytes rest : Bytes}
    (h : skipGroup budget number outer bytes = .ok rest) : rest.length ≤ bytes.length := by
  fun_induction skipGroup budget number outer bytes with
  | case1 => simp at h
  | case2 => simp at h
  | case3 budget number bytes n r hk _ =>
      cases h
      exact Nat.le_of_lt (readKey_shorter hk)
  | case4 budget number bytes n r hk _ m outer hr ih =>
      have := ih h
      omega
  | case5 => simp at h
  | case6 budget number outer bytes n r hk hb hr ih =>
      have := ih h
      omega
  | case7 => simp at h
  | case8 => simp at h
  | case9 budget number outer bytes n wire r hk _ _ hb behind hs hr hr' ih =>
      have := ih h
      omega

theorem skip_shorter {budget number : Nat} {wire : WireType} {bytes rest : Bytes}
    (h : skip budget number wire bytes = .ok rest) : rest.length ≤ bytes.length := by
  unfold skip at h
  split at h
  · simp at h
  · split at h
    · exact skipGroup_shorter h
    · exact skipValue_shorter h

end ReadThrough.Protobuf
