import ReadThrough.Settings
import ReadThrough.Verdict

namespace ReadThrough.Store

structure Frame where
  code : UInt8
  payload : Bytes
  deriving DecidableEq, Repr

namespace Frame

def maxLength : Nat := 16 * 1024 * 1024

def size (frame : Frame) : Nat :=
  Settings.frameHeader + frame.payload.length

def word (n : Nat) : Bytes :=
  [UInt8.ofNat (n / 16777216), UInt8.ofNat (n / 65536), UInt8.ofNat (n / 256), UInt8.ofNat n]

def wordValue (a b c d : UInt8) : Nat :=
  ((a.toNat * 256 + b.toNat) * 256 + c.toNat) * 256 + d.toNat

def encode (frame : Frame) : Bytes :=
  word (frame.payload.length + 1) ++ frame.code :: frame.payload

/-- The length is judged as soon as the code byte is there. -/
def decode : Bytes → Verdict Frame
  | a :: b :: c :: d :: code :: body =>
      let length := wordValue a b c d
      if length = 0 then .refused .frameWithoutCode
      else if maxLength < length then .refused (.payloadTooLarge length maxLength)
      else
        let payload := body.take (length - 1)
        if payload.length + 1 < length then .incomplete
        else .complete { code, payload } (body.drop (length - 1))
  | _ => .incomplete

theorem wordValue_word {n : Nat} (h : n < 4294967296) :
    wordValue (UInt8.ofNat (n / 16777216)) (UInt8.ofNat (n / 65536)) (UInt8.ofNat (n / 256))
      (UInt8.ofNat n) = n := by
  simp only [wordValue, UInt8.toNat_ofNat']
  omega

theorem length_encode (frame : Frame) : frame.encode.length = frame.size := by
  simp only [encode, word, size, Settings.frameHeader, List.length_append, List.length_cons,
    List.length_nil]
  omega

theorem decode_encode {frame : Frame} (h : frame.payload.length < maxLength) (rest : Bytes) :
    decode (frame.encode ++ rest) = .complete frame rest := by
  have bound : frame.payload.length + 1 < 4294967296 := by
    simp only [maxLength] at h
    omega
  simp only [encode, word, List.cons_append, List.nil_append, decode, wordValue_word bound]
  rw [if_neg (by omega), if_neg (by omega)]
  simp

theorem decode_shorter {bytes rest : Bytes} {frame : Frame}
    (h : decode bytes = .complete frame rest) : rest.length < bytes.length := by
  unfold decode at h
  split at h
  · next a b c d code body =>
      simp only at h
      split at h
      · simp at h
      · split at h
        · simp at h
        · split at h
          · simp at h
          · cases h
            simp only [List.length_drop, List.length_cons]
            omega
  · simp at h

def reader : Reader Frame where
  read := decode
  shorter := decode_shorter

end Frame

end ReadThrough.Store
