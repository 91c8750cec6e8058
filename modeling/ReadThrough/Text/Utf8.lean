import ReadThrough.Bytes

namespace ReadThrough.Text

def utf8 (text : String) : Bytes :=
  text.toList.flatMap String.utf8EncodeChar

/-- Where a reader of UTF-8 stands: between two characters, or inside one of which `code` has been
read, `missing + 1` more bytes are due, and the next of them has to lie from `low` to `high`. -/
inductive Scan where
  | between
  | inside (code : Nat) (missing : Nat) (low high : UInt8)
  deriving DecidableEq, Repr

def replacement : Char := Char.ofNat 0xFFFD

def Scan.first (b : UInt8) : List Char × Scan :=
  if b < 0x80 then ([Char.ofNat b.toNat], .between)
  else if b < 0xC2 then ([replacement], .between)
  else if b < 0xE0 then ([], .inside (b.toNat % 32) 0 0x80 0xBF)
  else if b = 0xE0 then ([], .inside 0 1 0xA0 0xBF)
  else if b = 0xED then ([], .inside 13 1 0x80 0x9F)
  else if b < 0xF0 then ([], .inside (b.toNat % 16) 1 0x80 0xBF)
  else if b = 0xF0 then ([], .inside 0 2 0x90 0xBF)
  else if b < 0xF4 then ([], .inside (b.toNat % 8) 2 0x80 0xBF)
  else if b = 0xF4 then ([], .inside 4 2 0x80 0x8F)
  else ([replacement], .between)

def Scan.feed : Scan → UInt8 → List Char × Scan
  | .between, b => first b
  | .inside code missing low high, b =>
      if low ≤ b && b ≤ high then
        let code := code * 64 + b.toNat % 64
        match missing with
        | 0 => ([Char.ofNat code], .between)
        | n + 1 => ([], .inside code n 0x80 0xBF)
      else
        let (chars, scan) := first b
        (replacement :: chars, scan)

def Scan.finish : Scan → List Char
  | .between => []
  | .inside .. => [replacement]

def charsFrom (scan : Scan) : Bytes → List Char
  | [] => scan.finish
  | b :: rest =>
      let (chars, scan) := scan.feed b
      chars ++ charsFrom scan rest

def lossy (bytes : Bytes) : String :=
  String.ofList (charsFrom .between bytes)

end ReadThrough.Text
