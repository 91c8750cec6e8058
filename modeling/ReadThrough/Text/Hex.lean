import ReadThrough.Bytes

namespace ReadThrough.Hex

def digit (n : Nat) : Char :=
  if n < 10 then Char.ofNat (48 + n) else Char.ofNat (87 + n)

def byte (b : UInt8) : List Char :=
  [digit (b.toNat / 16), digit (b.toNat % 16)]

def encode (bytes : Bytes) : String :=
  String.ofList (bytes.flatMap byte)

def ofNat (n : Nat) : String :=
  String.ofList (Nat.toDigits 16 n)

def value? (b : UInt8) : Option UInt8 :=
  if 48 ≤ b && b ≤ 57 then some (b - 48)
  else if 97 ≤ b && b ≤ 102 then some (b - 87)
  else if 65 ≤ b && b ≤ 70 then some (b - 55)
  else none

inductive Fault where
  | oddLength
  | character (byte : UInt8) (position : Nat)
  deriving DecidableEq, Repr

def pairs (position : Nat) : Bytes → Except Fault Bytes
  | high :: low :: rest =>
      match value? high, value? low with
      | none, _ => .error (.character high position)
      | some _, none => .error (.character low (position + 1))
      | some h, some l => (pairs (position + 2) rest).map fun bytes => (16 * h + l) :: bytes
  | _ => .ok []

def decode (digits : Bytes) : Except Fault Bytes :=
  if digits.length % 2 = 1 then .error .oddLength else pairs 0 digits

theorem value?_digit (n : Nat) (h : n < 16) :
    value? (UInt8.ofNat (digit n).toNat) = some (UInt8.ofNat n) := by
  have : ∀ m : Fin 16, value? (UInt8.ofNat (digit m.val).toNat) = some (UInt8.ofNat m.val) := by
    decide
  exact this ⟨n, h⟩

end ReadThrough.Hex
