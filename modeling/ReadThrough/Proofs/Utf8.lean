import ReadThrough.Text.Utf8

namespace ReadThrough.Text

section Scan

variable {code missing k v : Nat} {low high : UInt8} {rest : Bytes}

theorem first_two (le : 194 ≤ v) (lt : v < 224) :
    Scan.first (UInt8.ofNat v) = ([], .inside (v % 32) 0 0x80 0xBF) := by
  revert le
  revert v
  decide +kernel

theorem first_three (le : 224 ≤ v) (lt : v < 240) :
    Scan.first (UInt8.ofNat v) = ([], .inside (v % 16) 1 (if v = 224 then 0xA0 else 0x80)
      (if v = 237 then 0x9F else 0xBF)) := by
  revert le
  revert v
  decide +kernel

theorem first_four (le : 240 ≤ v) (lt : v < 245) :
    Scan.first (UInt8.ofNat v) = ([], .inside (v % 8) 2 (if v = 240 then 0x90 else 0x80)
      (if v = 244 then 0x8F else 0xBF)) := by
  revert le
  revert v
  decide +kernel

theorem inside_ofNat (lt : k < 64) (le : low.toNat ≤ k + 128) (le' : k + 128 ≤ high.toNat) :
    (low ≤ UInt8.ofNat (k + 128) && UInt8.ofNat (k + 128) ≤ high) = true ∧
      (UInt8.ofNat (k + 128)).toNat % 64 = k := by
  have value : (UInt8.ofNat (k + 128)).toNat = k + 128 :=
    UInt8.toNat_ofNat_of_lt' (Nat.lt_of_lt_of_le (Nat.add_lt_add_right lt 128) (by decide))
  simp only [Bool.and_eq_true, decide_eq_true_eq, UInt8.le_iff_toNat_le, value]
  exact ⟨⟨le, le'⟩, by omega⟩

theorem charsFrom_last (lt : k < 64) (le : low.toNat ≤ k + 128) (le' : k + 128 ≤ high.toNat) :
    charsFrom (.inside code 0 low high) (UInt8.ofNat (k + 128) :: rest) =
      Char.ofNat (code * 64 + k) :: charsFrom .between rest := by
  obtain ⟨within, bits⟩ := inside_ofNat lt le le'
  have fed : Scan.feed (.inside code 0 low high) (UInt8.ofNat (k + 128)) =
      ([Char.ofNat (code * 64 + k)], .between) := by
    simp only [Scan.feed, within, if_true, bits]
  rw [charsFrom, fed]
  rfl

theorem charsFrom_more (lt : k < 64) (le : low.toNat ≤ k + 128) (le' : k + 128 ≤ high.toNat) :
    charsFrom (.inside code (missing + 1) low high) (UInt8.ofNat (k + 128) :: rest) =
      charsFrom (.inside (code * 64 + k) missing 0x80 0xBF) rest := by
  obtain ⟨within, bits⟩ := inside_ofNat lt le le'
  have fed : Scan.feed (.inside code (missing + 1) low high) (UInt8.ofNat (k + 128)) =
      ([], .inside (code * 64 + k) missing 0x80 0xBF) := by
    simp only [Scan.feed, within, if_true, bits]
  rw [charsFrom, fed]
  rfl

theorem charsFrom_first {b : UInt8} {scan : Scan} (h : Scan.first b = ([], scan)) :
    charsFrom .between (b :: rest) = charsFrom scan rest := by
  rw [charsFrom, Scan.feed, h]
  rfl

theorem charsFrom_encodeChar (c : Char) (rest : Bytes) :
    charsFrom .between (String.utf8EncodeChar c ++ rest) = c :: charsFrom .between rest := by
  have valid : c.val.toNat < 55296 ∨ 57343 < c.val.toNat ∧ c.val.toNat < 1114112 := c.valid
  have same : Char.ofNat c.val.toNat = c := Char.ofNat_toNat c
  unfold String.utf8EncodeChar
  generalize c.val.toNat = n at valid same
  dsimp only
  split
  · next small =>
      have value : (UInt8.ofNat n).toNat = n :=
        UInt8.toNat_ofNat_of_lt' (Nat.lt_of_le_of_lt small (by decide))
      have low : UInt8.ofNat n < 0x80 :=
        UInt8.lt_iff_toNat_lt.mpr (by rw [value]; exact Nat.lt_succ_of_le small)
      rw [List.cons_append, List.nil_append, charsFrom, Scan.feed, Scan.first, if_pos low, value,
        same]
      rfl
  split
  · next large small =>
      rw [List.cons_append, List.cons_append, List.nil_append,
        charsFrom_first (first_two (by omega) (by omega)),
        charsFrom_last (by omega) (by simp) (by simp; omega)]
      rw [show (n / 64 % 32 + 192) % 32 * 64 + n % 64 = n by omega, same]
  split
  · next large small =>
      have above : (if n / 4096 % 16 + 224 = 224 then 0xA0 else 0x80 : UInt8).toNat ≤
          n / 64 % 64 + 128 := by
        split
        · change 160 ≤ _
          omega
        · exact Nat.le_add_left _ _
      have below : n / 64 % 64 + 128 ≤
          (if n / 4096 % 16 + 224 = 237 then 0x9F else 0xBF : UInt8).toNat := by
        split
        · change _ ≤ 159
          omega
        · change _ ≤ 191
          omega
      rw [List.cons_append, List.cons_append, List.cons_append, List.nil_append,
        charsFrom_first (first_three (by omega) (by omega)), charsFrom_more (by omega) above below,
        charsFrom_last (by omega) (by simp) (by simp; omega)]
      rw [show ((n / 4096 % 16 + 224) % 16 * 64 + n / 64 % 64) * 64 + n % 64 = n by omega, same]
  · next large =>
      have above : (if n / 262144 % 8 + 240 = 240 then 0x90 else 0x80 : UInt8).toNat ≤
          n / 4096 % 64 + 128 := by
        split
        · change 144 ≤ _
          omega
        · exact Nat.le_add_left _ _
      have below : n / 4096 % 64 + 128 ≤
          (if n / 262144 % 8 + 240 = 244 then 0x8F else 0xBF : UInt8).toNat := by
        split
        · change _ ≤ 143
          omega
        · change _ ≤ 191
          omega
      rw [List.cons_append, List.cons_append, List.cons_append, List.cons_append, List.nil_append,
        charsFrom_first (first_four (by omega) (by omega)), charsFrom_more (by omega) above below,
        charsFrom_more (by omega) (by simp) (by simp; omega),
        charsFrom_last (by omega) (by simp) (by simp; omega)]
      rw [show (((n / 262144 % 8 + 240) % 8 * 64 + n / 4096 % 64) * 64 + n / 64 % 64) * 64 +
        n % 64 = n by omega, same]

theorem lossy_utf8 (text : String) : lossy (utf8 text) = text := by
  have chars : ∀ cs : List Char, charsFrom .between (cs.flatMap String.utf8EncodeChar) = cs := by
    intro cs
    induction cs with
    | nil => rfl
    | cons c cs ih => rw [List.flatMap_cons, charsFrom_encodeChar, ih]
  rw [lossy, utf8, chars, String.ofList_toList]

end Scan

end ReadThrough.Text
