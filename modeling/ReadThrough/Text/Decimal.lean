import ReadThrough.Bytes

namespace ReadThrough.Decimal

def ofNat (n : Nat) : Bytes :=
  (Nat.toDigits 10 n).map fun c => UInt8.ofNat c.toNat

def ofInt : Int → Bytes
  | .ofNat n => ofNat n
  | .negSucc n => 45 :: ofNat (n + 1)

def ofInt64 (n : Int64) : Bytes :=
  ofInt n.toInt

def nat? (digits : Bytes) : Option Nat :=
  if digits ≠ [] ∧ digits.all isDigit then
    some (digits.foldl (fun n d => 10 * n + (d.toNat - 48)) 0)
  else none

def int? : Bytes → Option Int
  | [] => none
  | b :: rest =>
      if b = 45 then (nat? rest).map fun n => -(n : Int)
      else if b = 43 then (nat? rest).map Int.ofNat
      else (nat? (b :: rest)).map Int.ofNat

def int64? (bytes : Bytes) : Option Int64 :=
  (int? bytes).bind fun n =>
    if Int64.minValue.toInt ≤ n ∧ n ≤ Int64.maxValue.toInt then some (Int64.ofInt n) else none

end ReadThrough.Decimal
