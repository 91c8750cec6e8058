import ReadThrough.Protobuf.Message

namespace ReadThrough.Store.Message

open ReadThrough.Protobuf (Codec Field)

structure ErrorResp where
  message : Bytes := []
  code : UInt32 := 0
  deriving DecidableEq, Repr

instance : Protobuf.Message ErrorResp where
  blank := {}
  fields := [
    .single 1 .bytes (·.message) (fun m v => { m with message := v }),
    .single 2 .uint32 (·.code) (fun m v => { m with code := v })]

structure Content where
  value : Bytes := []
  contentType : Option Bytes := none
  charset : Option Bytes := none
  contentEncoding : Option Bytes := none
  vtag : Option Bytes := none
  lastMod : Option UInt32 := none
  lastModUsecs : Option UInt32 := none
  deleted : Option Bool := none
  deriving DecidableEq, Repr

instance : Protobuf.Message Content where
  blank := {}
  fields := [
    .single 1 .bytes (·.value) (fun m v => { m with value := v }),
    .optional 2 .bytes (·.contentType) (fun m v => { m with contentType := v }),
    .optional 3 .bytes (·.charset) (fun m v => { m with charset := v }),
    .optional 4 .bytes (·.contentEncoding) (fun m v => { m with contentEncoding := v }),
    .optional 5 .bytes (·.vtag) (fun m v => { m with vtag := v }),
    .optional 7 .uint32 (·.lastMod) (fun m v => { m with lastMod := v }),
    .optional 8 .uint32 (·.lastModUsecs) (fun m v => { m with lastModUsecs := v }),
    .optional 11 .bool (·.deleted) (fun m v => { m with deleted := v })]

structure GetReq where
  bucket : Bytes := []
  key : Bytes := []
  r : Option UInt32 := none
  pr : Option UInt32 := none
  basicQuorum : Option Bool := none
  notFoundOk : Option Bool := none
  deletedVclock : Option Bool := none
  timeout : Option UInt32 := none
  sloppyQuorum : Option Bool := none
  nVal : Option UInt32 := none
  bucketType : Option Bytes := none
  deriving DecidableEq, Repr

instance : Protobuf.Message GetReq where
  blank := {}
  fields := [
    .single 1 .bytes (·.bucket) (fun m v => { m with bucket := v }),
    .single 2 .bytes (·.key) (fun m v => { m with key := v }),
    .optional 3 .uint32 (·.r) (fun m v => { m with r := v }),
    .optional 4 .uint32 (·.pr) (fun m v => { m with pr := v }),
    .optional 5 .bool (·.basicQuorum) (fun m v => { m with basicQuorum := v }),
    .optional 6 .bool (·.notFoundOk) (fun m v => { m with notFoundOk := v }),
    .optional 9 .bool (·.deletedVclock) (fun m v => { m with deletedVclock := v }),
    .optional 10 .uint32 (·.timeout) (fun m v => { m with timeout := v }),
    .optional 11 .bool (·.sloppyQuorum) (fun m v => { m with sloppyQuorum := v }),
    .optional 12 .uint32 (·.nVal) (fun m v => { m with nVal := v }),
    .optional 13 .bytes (·.bucketType) (fun m v => { m with bucketType := v })]

structure GetResp where
  content : List Content := []
  vclock : Option Bytes := none
  unchanged : Option Bool := none
  deriving DecidableEq, Repr

instance : Protobuf.Message GetResp where
  blank := {}
  fields := [
    .many 1 .message (·.content) (fun m v => { m with content := v }),
    .optional 2 .bytes (·.vclock) (fun m v => { m with vclock := v }),
    .optional 3 .bool (·.unchanged) (fun m v => { m with unchanged := v })]

structure PutReq where
  bucket : Bytes := []
  key : Option Bytes := none
  vclock : Option Bytes := none
  content : Content := {}
  w : Option UInt32 := none
  returnBody : Option Bool := none
  pw : Option UInt32 := none
  timeout : Option UInt32 := none
  sloppyQuorum : Option Bool := none
  nVal : Option UInt32 := none
  bucketType : Option Bytes := none
  deriving DecidableEq, Repr

instance : Protobuf.Message PutReq where
  blank := {}
  fields := [
    .single 1 .bytes (·.bucket) (fun m v => { m with bucket := v }),
    .optional 2 .bytes (·.key) (fun m v => { m with key := v }),
    .optional 3 .bytes (·.vclock) (fun m v => { m with vclock := v }),
    .single 4 .message (·.content) (fun m v => { m with content := v }),
    .optional 5 .uint32 (·.w) (fun m v => { m with w := v }),
    .optional 7 .bool (·.returnBody) (fun m v => { m with returnBody := v }),
    .optional 8 .uint32 (·.pw) (fun m v => { m with pw := v }),
    .optional 12 .uint32 (·.timeout) (fun m v => { m with timeout := v }),
    .optional 14 .bool (·.sloppyQuorum) (fun m v => { m with sloppyQuorum := v }),
    .optional 15 .uint32 (·.nVal) (fun m v => { m with nVal := v }),
    .optional 16 .bytes (·.bucketType) (fun m v => { m with bucketType := v })]

structure PutResp where
  content : List Content := []
  vclock : Option Bytes := none
  key : Option Bytes := none
  deriving DecidableEq, Repr

instance : Protobuf.Message PutResp where
  blank := {}
  fields := [
    .many 1 .message (·.content) (fun m v => { m with content := v }),
    .optional 2 .bytes (·.vclock) (fun m v => { m with vclock := v }),
    .optional 3 .bytes (·.key) (fun m v => { m with key := v })]

structure DelReq where
  bucket : Bytes := []
  key : Bytes := []
  vclock : Option Bytes := none
  w : Option UInt32 := none
  pw : Option UInt32 := none
  timeout : Option UInt32 := none
  sloppyQuorum : Option Bool := none
  nVal : Option UInt32 := none
  bucketType : Option Bytes := none
  deriving DecidableEq, Repr

instance : Protobuf.Message DelReq where
  blank := {}
  fields := [
    .single 1 .bytes (·.bucket) (fun m v => { m with bucket := v }),
    .single 2 .bytes (·.key) (fun m v => { m with key := v }),
    .optional 4 .bytes (·.vclock) (fun m v => { m with vclock := v }),
    .optional 6 .uint32 (·.w) (fun m v => { m with w := v }),
    .optional 8 .uint32 (·.pw) (fun m v => { m with pw := v }),
    .optional 10 .uint32 (·.timeout) (fun m v => { m with timeout := v }),
    .optional 11 .bool (·.sloppyQuorum) (fun m v => { m with sloppyQuorum := v }),
    .optional 12 .uint32 (·.nVal) (fun m v => { m with nVal := v }),
    .optional 13 .bytes (·.bucketType) (fun m v => { m with bucketType := v })]

structure DtFetchReq where
  bucket : Bytes := []
  key : Bytes := []
  bucketType : Bytes := []
  r : Option UInt32 := none
  pr : Option UInt32 := none
  basicQuorum : Option Bool := none
  notFoundOk : Option Bool := none
  timeout : Option UInt32 := none
  sloppyQuorum : Option Bool := none
  nVal : Option UInt32 := none
  includeContext : Option Bool := none
  deriving DecidableEq, Repr

instance : Protobuf.Message DtFetchReq where
  blank := {}
  fields := [
    .single 1 .bytes (·.bucket) (fun m v => { m with bucket := v }),
    .single 2 .bytes (·.key) (fun m v => { m with key := v }),
    .single 3 .bytes (·.bucketType) (fun m v => { m with bucketType := v }),
    .optional 4 .uint32 (·.r) (fun m v => { m with r := v }),
    .optional 5 .uint32 (·.pr) (fun m v => { m with pr := v }),
    .optional 6 .bool (·.basicQuorum) (fun m v => { m with basicQuorum := v }),
    .optional 7 .bool (·.notFoundOk) (fun m v => { m with notFoundOk := v }),
    .optional 8 .uint32 (·.timeout) (fun m v => { m with timeout := v }),
    .optional 9 .bool (·.sloppyQuorum) (fun m v => { m with sloppyQuorum := v }),
    .optional 10 .uint32 (·.nVal) (fun m v => { m with nVal := v }),
    .optional 11 .bool (·.includeContext) (fun m v => { m with includeContext := v })]

structure DtValue where
  counterValue : Option Int64 := none
  setValue : List Bytes := []
  deriving DecidableEq, Repr

instance : Protobuf.Message DtValue where
  blank := {}
  fields := [
    .optional 1 .sint64 (·.counterValue) (fun m v => { m with counterValue := v }),
    .many 2 .bytes (·.setValue) (fun m v => { m with setValue := v })]

structure DtFetchResp where
  context : Option Bytes := none
  dataType : Int32 := 0
  value : Option DtValue := none
  deriving DecidableEq, Repr

instance : Protobuf.Message DtFetchResp where
  blank := {}
  fields := [
    .optional 1 .bytes (·.context) (fun m v => { m with context := v }),
    .single 2 .int32 (·.dataType) (fun m v => { m with dataType := v }),
    .optional 3 .message (·.value) (fun m v => { m with value := v })]

structure SetOp where
  adds : List Bytes := []
  removes : List Bytes := []
  deriving DecidableEq, Repr

instance : Protobuf.Message SetOp where
  blank := {}
  fields := [
    .many 1 .bytes (·.adds) (fun m v => { m with adds := v }),
    .many 2 .bytes (·.removes) (fun m v => { m with removes := v })]

structure DtOp where
  setOp : Option SetOp := none
  deriving DecidableEq, Repr

instance : Protobuf.Message DtOp where
  blank := {}
  fields := [
    .optional 2 .message (·.setOp) (fun m v => { m with setOp := v })]

structure DtUpdateReq where
  bucket : Bytes := []
  key : Option Bytes := none
  bucketType : Bytes := []
  context : Option Bytes := none
  op : DtOp := {}
  w : Option UInt32 := none
  pw : Option UInt32 := none
  returnBody : Option Bool := none
  timeout : Option UInt32 := none
  sloppyQuorum : Option Bool := none
  nVal : Option UInt32 := none
  deriving DecidableEq, Repr

instance : Protobuf.Message DtUpdateReq where
  blank := {}
  fields := [
    .single 1 .bytes (·.bucket) (fun m v => { m with bucket := v }),
    .optional 2 .bytes (·.key) (fun m v => { m with key := v }),
    .single 3 .bytes (·.bucketType) (fun m v => { m with bucketType := v }),
    .optional 4 .bytes (·.context) (fun m v => { m with context := v }),
    .single 5 .message (·.op) (fun m v => { m with op := v }),
    .optional 6 .uint32 (·.w) (fun m v => { m with w := v }),
    .optional 8 .uint32 (·.pw) (fun m v => { m with pw := v }),
    .optional 9 .bool (·.returnBody) (fun m v => { m with returnBody := v }),
    .optional 10 .uint32 (·.timeout) (fun m v => { m with timeout := v }),
    .optional 11 .bool (·.sloppyQuorum) (fun m v => { m with sloppyQuorum := v }),
    .optional 12 .uint32 (·.nVal) (fun m v => { m with nVal := v })]

structure DtUpdateResp where
  key : Option Bytes := none
  context : Option Bytes := none
  counterValue : Option Int64 := none
  setValue : List Bytes := []
  deriving DecidableEq, Repr

instance : Protobuf.Message DtUpdateResp where
  blank := {}
  fields := [
    .optional 1 .bytes (·.key) (fun m v => { m with key := v }),
    .optional 2 .bytes (·.context) (fun m v => { m with context := v }),
    .optional 3 .sint64 (·.counterValue) (fun m v => { m with counterValue := v }),
    .many 4 .bytes (·.setValue) (fun m v => { m with setValue := v })]

structure CounterUpdateReq where
  bucket : Bytes := []
  key : Bytes := []
  amount : Int64 := 0
  w : Option UInt32 := none
  pw : Option UInt32 := none
  returnValue : Option Bool := none
  deriving DecidableEq, Repr

instance : Protobuf.Message CounterUpdateReq where
  blank := {}
  fields := [
    .single 1 .bytes (·.bucket) (fun m v => { m with bucket := v }),
    .single 2 .bytes (·.key) (fun m v => { m with key := v }),
    .single 3 .sint64 (·.amount) (fun m v => { m with amount := v }),
    .optional 4 .uint32 (·.w) (fun m v => { m with w := v }),
    .optional 6 .uint32 (·.pw) (fun m v => { m with pw := v }),
    .optional 7 .bool (·.returnValue) (fun m v => { m with returnValue := v })]

structure CounterGetReq where
  bucket : Bytes := []
  key : Bytes := []
  r : Option UInt32 := none
  pr : Option UInt32 := none
  basicQuorum : Option Bool := none
  notFoundOk : Option Bool := none
  deriving DecidableEq, Repr

instance : Protobuf.Message CounterGetReq where
  blank := {}
  fields := [
    .single 1 .bytes (·.bucket) (fun m v => { m with bucket := v }),
    .single 2 .bytes (·.key) (fun m v => { m with key := v }),
    .optional 3 .uint32 (·.r) (fun m v => { m with r := v }),
    .optional 4 .uint32 (·.pr) (fun m v => { m with pr := v }),
    .optional 5 .bool (·.basicQuorum) (fun m v => { m with basicQuorum := v }),
    .optional 6 .bool (·.notFoundOk) (fun m v => { m with notFoundOk := v })]

structure CounterResp where
  value : Option Int64 := none
  deriving DecidableEq, Repr

instance : Protobuf.Message CounterResp where
  blank := {}
  fields := [
    .optional 1 .sint64 (·.value) (fun m v => { m with value := v })]

def setType : Int32 := 2

end ReadThrough.Store.Message
