import ReadThrough.Failure

namespace ReadThrough.Protobuf.Varint

def encode (n : Nat) : Bytes :=
  if n < 128 then [UInt8.ofNat n] else UInt8.ofNat (n % 128 + 128) :: encode (n / 128)
termination_by n

def size (n : Nat) : Nat :=
  if n < 128 then 1 else 1 + size (n / 128)
termination_by n

def decodeFrom (taken : Nat) : Bytes → Except RecordFault (Nat × Bytes)
  | [] => .error .invalidVarint
  | b :: rest =>
      if b < 128 then
        if taken = 9 ∧ 1 < b then .error .invalidVarint else .ok (b.toNat, rest)
      else if taken = 9 then .error .invalidVarint
      else (decodeFrom (taken + 1) rest).map fun (n, rest) => (b.toNat - 128 + 128 * n, rest)

def decode (bytes : Bytes) : Except RecordFault (Nat × Bytes) :=
  decodeFrom 0 bytes

theorem length_encode (n : Nat) : (encode n).length = size n := by
  fun_induction encode n with
  | case1 n h => simp [size, h]
  | case2 n h ih => rw [size, if_neg h, List.length_cons, ih]; omega

theorem decodeFrom_shorter {taken : Nat} {bytes : Bytes} {n : Nat} {rest : Bytes}
    (h : decodeFrom taken bytes = .ok (n, rest)) : rest.length < bytes.length := by
  induction bytes generalizing taken n rest with
  | nil => simp [decodeFrom] at h
  | cons b bytes ih =>
      simp only [decodeFrom] at h
      split at h
      · split at h
        · simp at h
        · cases h; simp
      · split at h
        · simp at h
        · cases hd : decodeFrom (taken + 1) bytes with
          | error e => simp [hd, Except.map] at h
          | ok p =>
              obtain ⟨m, r⟩ := p
              simp only [hd, Except.map, Except.ok.injEq, Prod.mk.injEq] at h
              have := ih hd
              rw [← h.2, List.length_cons]
              omega

theorem decode_shorter {bytes : Bytes} {n : Nat} {rest : Bytes}
    (h : decode bytes = .ok (n, rest)) : rest.length < bytes.length :=
  decodeFrom_shorter h

end ReadThrough.Protobuf.Varint
