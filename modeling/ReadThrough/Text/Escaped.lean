import ReadThrough.Text.Hex
import ReadThrough.Text.Visible

namespace ReadThrough.Text

structure Escaping where
  single : Bool
  double : Bool
  extending : Bool
  deriving DecidableEq, Repr

def Escaping.char (style : Escaping) (c : Char) : List Char :=
  match c.toNat with
  | 0 => ['\\', '0']
  | 9 => ['\\', 't']
  | 10 => ['\\', 'n']
  | 13 => ['\\', 'r']
  | 34 => if style.double then ['\\', c] else [c]
  | 39 => if style.single then ['\\', c] else [c]
  | 92 => ['\\', c]
  | n =>
      if isHidden c || (style.extending && isExtending c) then
        ['\\', 'u', '\x7b'] ++ Nat.toDigits 16 n ++ ['\x7d']
      else [c]

def escapeLine (text : String) : String :=
  let style : Escaping := { single := true, double := true, extending := false }
  match text.toList with
  | [] => ""
  | c :: rest =>
      String.ofList ({ style with extending := true }.char c ++ rest.flatMap style.char)

def quoted (text : String) : String :=
  let style : Escaping := { single := false, double := true, extending := true }
  "\"" ++ String.ofList (text.toList.flatMap style.char) ++ "\""

def quotedChar (c : Char) : String :=
  let style : Escaping := { single := true, double := false, extending := true }
  "'" ++ String.ofList (style.char c) ++ "'"

def byteEscape (b : UInt8) : List Char :=
  match b.toNat with
  | 0 => ['\\', '0']
  | 9 => ['\\', 't']
  | 10 => ['\\', 'n']
  | 13 => ['\\', 'r']
  | 34 => ['\\', '\x22']
  | 92 => ['\\', '\\']
  | n => if 32 ≤ n ∧ n < 127 then [Char.ofNat n] else ['\\', 'x'] ++ Hex.byte b

def byteLiteral (bytes : Bytes) : String :=
  "b\"" ++ String.ofList (bytes.flatMap byteEscape) ++ "\""

end ReadThrough.Text
