namespace ReadThrough.Store

inductive Code where
  | errorResp
  | getReq
  | getResp
  | putReq
  | putResp
  | delReq
  | delResp
  | counterUpdateReq
  | counterUpdateResp
  | counterGetReq
  | counterGetResp
  | dtFetchReq
  | dtFetchResp
  | dtUpdateReq
  | dtUpdateResp
  deriving DecidableEq, Repr

namespace Code

def all : List Code :=
  [.errorResp, .getReq, .getResp, .putReq, .putResp, .delReq, .delResp, .counterUpdateReq,
    .counterUpdateResp, .counterGetReq, .counterGetResp, .dtFetchReq, .dtFetchResp, .dtUpdateReq,
    .dtUpdateResp]

def byte : Code → UInt8
  | .errorResp => 0
  | .getReq => 9
  | .getResp => 10
  | .putReq => 11
  | .putResp => 12
  | .delReq => 13
  | .delResp => 14
  | .counterUpdateReq => 50
  | .counterUpdateResp => 51
  | .counterGetReq => 52
  | .counterGetResp => 53
  | .dtFetchReq => 80
  | .dtFetchResp => 81
  | .dtUpdateReq => 82
  | .dtUpdateResp => 83

def ofByte? (b : UInt8) : Option Code :=
  all.find? fun c => c.byte == b

theorem ofByte?_byte (c : Code) : ofByte? c.byte = some c := by
  cases c <;> decide

theorem byte_of_ofByte? {b : UInt8} {c : Code} (h : ofByte? b = some c) : c.byte = b := by
  simpa using List.find?_some h

def name : Code → String
  | .errorResp => "ErrorResp"
  | .getReq => "GetReq"
  | .getResp => "GetResp"
  | .putReq => "PutReq"
  | .putResp => "PutResp"
  | .delReq => "DelReq"
  | .delResp => "DelResp"
  | .counterUpdateReq => "CounterUpdateReq"
  | .counterUpdateResp => "CounterUpdateResp"
  | .counterGetReq => "CounterGetReq"
  | .counterGetResp => "CounterGetResp"
  | .dtFetchReq => "DtFetchReq"
  | .dtFetchResp => "DtFetchResp"
  | .dtUpdateReq => "DtUpdateReq"
  | .dtUpdateResp => "DtUpdateResp"

end Code

end ReadThrough.Store
