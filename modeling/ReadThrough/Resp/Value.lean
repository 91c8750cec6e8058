import ReadThrough.Text.Decimal

namespace ReadThrough.Resp

inductive Value where
  | simple (text : Bytes)
  | error (text : Bytes)
  | integer (n : Int64)
  | nilBulk
  | bulk (data : Bytes)
  | nilArray
  | array (items : List Value)
  deriving Repr, BEq, Inhabited

namespace Value

def isNil : Value → Bool
  | .nilBulk | .nilArray => true
  | _ => false

def isError : Value → Bool
  | .error _ => true
  | _ => false

def bytes? : Value → Option Bytes
  | .simple text => some text
  | .bulk data => some data
  | _ => none

def plus : UInt8 := 43
def minus : UInt8 := 45
def colon : UInt8 := 58
def dollar : UInt8 := 36
def star : UInt8 := 42

def line (tag : UInt8) (text : Bytes) : Bytes :=
  tag :: text ++ crlf

def encodeBulk (data : Bytes) : Bytes :=
  line dollar (Decimal.ofNat data.length) ++ data ++ crlf

mutual

def encode : Value → Bytes
  | .simple text => line plus text
  | .error text => line minus text
  | .integer n => line colon (Decimal.ofInt64 n)
  | .nilBulk => line dollar (ascii "-1")
  | .bulk data => encodeBulk data
  | .nilArray => line star (ascii "-1")
  | .array items => line star (Decimal.ofNat items.length) ++ encodeAll items

def encodeAll : List Value → Bytes
  | [] => []
  | item :: items => item.encode ++ encodeAll items

end

end Value

def encodeWords (words : List Bytes) : Bytes :=
  Value.line Value.star (Decimal.ofNat words.length) ++ words.flatMap Value.encodeBulk

end ReadThrough.Resp
