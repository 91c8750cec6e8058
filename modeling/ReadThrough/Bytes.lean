namespace ReadThrough

abbrev Bytes := List UInt8

def ascii (text : String) : Bytes :=
  text.toList.map fun c => UInt8.ofNat c.toNat

def crlf : Bytes := [13, 10]

def isBlank (b : UInt8) : Bool :=
  b == 32 || b == 9 || b == 10 || b == 12 || b == 13

def isDigit (b : UInt8) : Bool :=
  48 ≤ b && b ≤ 57

def upperByte (b : UInt8) : UInt8 :=
  if 97 ≤ b && b ≤ 122 then b - 32 else b

def cut (separator : UInt8) : Bytes → Bytes × Option Bytes
  | [] => ([], none)
  | b :: rest =>
      if b = separator then ([], some rest)
      else
        let (before, behind) := cut separator rest
        (b :: before, behind)

theorem cut_fst_not_mem (s : UInt8) (bs : Bytes) : s ∉ (cut s bs).1 := by
  induction bs with
  | nil => simp [cut]
  | cons b rest ih =>
      by_cases h : b = s
      · simp [cut, h]
      · simpa [cut, h, Ne.symm h] using ih

theorem cut_append (s : UInt8) (a b : Bytes) (h : s ∉ a) : cut s (a ++ s :: b) = (a, some b) := by
  induction a with
  | nil => simp [cut]
  | cons x xs ih =>
      have hx : x ≠ s := fun e => h (by simp [e])
      have hxs : s ∉ xs := fun m => h (by simp [m])
      simp [cut, hx, ih hxs]

end ReadThrough
