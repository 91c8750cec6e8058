import Mathlib.Data.List.Induction
import Mathlib.Data.Nat.Digits.Defs
import ReadThrough.Proofs.Framing

namespace ReadThrough.Decimal

def value (digits : Bytes) : Nat :=
  Nat.ofDigits 10 (digits.reverse.map fun d => d.toNat - 48)

inductive Numeral : Bytes → Int → Prop
  | plain {digits : Bytes} : digits ≠ [] → (∀ d ∈ digits, isDigit d = true) →
      Numeral digits (value digits)
  | plus {digits : Bytes} : digits ≠ [] → (∀ d ∈ digits, isDigit d = true) →
      Numeral (43 :: digits) (value digits)
  | minus {digits : Bytes} : digits ≠ [] → (∀ d ∈ digits, isDigit d = true) →
      Numeral (45 :: digits) (-(value digits : Int))

variable {digits text : Bytes}

theorem foldl_eq_value (digits : Bytes) :
    digits.foldl (fun n d => 10 * n + (d.toNat - 48)) 0 = value digits := by
  induction digits using List.reverseRecOn with
  | nil => rfl
  | append_singleton digits d ih =>
      rw [List.foldl_append, ih, value, value, List.reverse_append, List.reverse_singleton,
        List.singleton_append, List.map_cons, Nat.ofDigits_cons, List.foldl_cons, List.foldl_nil,
        Nat.add_comm]

theorem nat?_eq_some_iff {n : Nat} : nat? digits = some n ↔
    digits ≠ [] ∧ (∀ d ∈ digits, isDigit d = true) ∧ value digits = n := by
  rw [nat?, foldl_eq_value]
  split
  · next h => simp_all
  · next h => simp_all

theorem int?_cons (b : UInt8) (rest : Bytes) : int? (b :: rest) =
    if b = 45 then (nat? rest).map fun n : Nat => -(n : Int)
    else (nat? (if b = 43 then rest else b :: rest)).map Int.ofNat := by
  rw [int?]
  split
  · cases nat? rest <;> rfl
  · split <;> rfl

theorem int?_eq_some_iff {n : Int} : int? text = some n ↔ Numeral text n := by
  constructor
  · intro read
    cases text with
    | nil => cases read
    | cons b rest =>
        rw [int?_cons] at read
        split at read
        · next minus =>
            obtain ⟨k, number, rfl⟩ := Option.map_eq_some_iff.mp read
            obtain ⟨some, all, rfl⟩ := nat?_eq_some_iff.mp number
            exact minus ▸ .minus some all
        · obtain ⟨k, number, rfl⟩ := Option.map_eq_some_iff.mp read
          obtain ⟨some, all, rfl⟩ := nat?_eq_some_iff.mp number
          split at some
          · next plus =>
              rw [if_pos plus] at all ⊢
              exact plus ▸ .plus some all
          · next other =>
              rw [if_neg other] at all ⊢
              exact .plain some all
  · intro numeral
    cases numeral with
    | plus some all =>
        rw [int?_cons, if_neg (by decide), if_pos rfl, nat?_eq_some_iff.mpr ⟨some, all, rfl⟩]
        rfl
    | minus some all =>
        rw [int?_cons, if_pos rfl, nat?_eq_some_iff.mpr ⟨some, all, rfl⟩]
        rfl
    | plain some all =>
        cases text with
        | nil => exact absurd rfl some
        | cons b rest =>
            have digit := all b List.mem_cons_self
            rw [int?_cons, if_neg (by rintro rfl; cases digit), if_neg (by rintro rfl; cases digit),
              nat?_eq_some_iff.mpr ⟨some, all, rfl⟩]
            rfl

theorem int64?_eq_some_iff {n : Int64} : int64? text = some n ↔ Numeral text n.toInt := by
  rw [int64?, ← int?_eq_some_iff]
  constructor
  · intro read
    obtain ⟨k, number, within⟩ := Option.bind_eq_some_iff.mp read
    split at within
    · next bounds =>
        cases within
        rw [Int64.toInt_ofInt_of_le bounds.1 (Int.lt_of_le_of_lt bounds.2 (by decide)), number]
    · cases within
  · intro number
    rw [number, Option.bind_some, if_pos ⟨n.minValue_le_toInt, n.toInt_le⟩, Int64.ofInt_toInt]

theorem numeral_ofInt64 (n : Int64) : Numeral (ofInt64 n) n.toInt :=
  int64?_eq_some_iff.mp (int64?_ofInt64 n)

end ReadThrough.Decimal
