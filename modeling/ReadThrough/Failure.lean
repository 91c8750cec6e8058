import ReadThrough.Store.Code
import ReadThrough.Text.Hex
import ReadThrough.Text.Utf8

namespace ReadThrough

inductive WireType where
  | varint
  | sixtyFourBit
  | lengthDelimited
  | startGroup
  | endGroup
  | thirtyTwoBit
  deriving DecidableEq, Repr

def WireType.name : WireType → String
  | .varint => "Varint"
  | .sixtyFourBit => "SixtyFourBit"
  | .lengthDelimited => "LengthDelimited"
  | .startGroup => "StartGroup"
  | .endGroup => "EndGroup"
  | .thirtyTwoBit => "ThirtyTwoBit"

inductive RecordFault where
  | invalidVarint
  | invalidKey (key : Nat)
  | unknownWireType (code : Nat)
  | tagZero
  | wireType (found expected : WireType)
  | underflow
  | lengthExceeded
  | unexpectedEndGroup
  | recursionLimit
  deriving DecidableEq, Repr

def RecordFault.detail : RecordFault → String
  | .invalidVarint => "invalid varint"
  | .invalidKey key => s!"invalid key value: {key}"
  | .unknownWireType code => s!"invalid wire type value: {code}"
  | .tagZero => "invalid tag value: 0"
  | .wireType found expected =>
      "invalid wire type: " ++ found.name ++ " (expected " ++ expected.name ++ ")"
  | .underflow => "buffer underflow"
  | .lengthExceeded => "delimited length exceeded"
  | .unexpectedEndGroup => "unexpected end group tag"
  | .recursionLimit => "recursion limit reached"

inductive FailureKind where
  | malformed
  | badRequest
  | resourceExhausted
  | transient
  | store
  | protocol
  | decode
  | transport
  | config
  deriving DecidableEq, Repr

namespace FailureKind

def opening : FailureKind → String
  | .malformed => "malformed request: "
  | .badRequest => "bad request: "
  | .resourceExhausted => "resource exhausted: "
  | .transient => "transient backend failure: "
  | .store => "upstream error: "
  | .protocol => "protocol error: "
  | .decode => "protobuf decode error: "
  | .transport => "IO error: "
  | .config => "configuration error: "

def isRetryable (kind : FailureKind) : Bool :=
  kind == .transient

def isFatalToConnection (kind : FailureKind) : Bool :=
  kind == .protocol || kind == .decode

end FailureKind

inductive Failure where
  | emptyKey
  | noKeyComponent (raw : Bytes)
  | nestedTooDeep
  | invalidInteger
  | invalidBulkLength (length : Int64)
  | bulkUnterminated
  | invalidArrayLength (length : Int64)
  | unexpectedTypeByte (byte : UInt8)
  | commandNotArray
  | argumentNotBulk
  | emptyCommand
  | wrongArgumentCount (command : String)
  | incompleteFrame
  | noBucket (key : Bytes)
  | unsupportedCommand (command : String)
  | amountNotInteger
  | amountOutOfRange
  | noMembers
  | invalidHex (reason : String)
  | frameTooLarge (code : Store.Code) (size limit : Nat)
  | transientStoreError (message : String)
  | storeError (message : String)
  | noStoreServer
  | undecodableResponse (cause : Failure)
  | connectionReset (cause : Failure)
  | serverLost (server : Nat) (reason : String)
  | frameWithoutCode
  | payloadTooLarge (length limit : Nat)
  | codeMismatch (received awaited : Store.Code)
  | notASet (dataType : Int32)
  | unrequestedResponse (code : UInt8)
  | unrequestedCacheReply
  | unexpectedCacheReply
  | unexpectedCacheMiss
  | responseToCacheRead
  | requestNotEncoded
  | transport (reason : String)
  | record (fault : RecordFault)
  | emptySetBucketType
  | frameSizeTooSmall (size : Nat)
  deriving DecidableEq, Repr

namespace Failure

def kind : Failure → FailureKind
  | .emptyKey | .noKeyComponent _ | .nestedTooDeep | .invalidInteger | .invalidBulkLength _
  | .bulkUnterminated | .invalidArrayLength _ | .unexpectedTypeByte _ | .commandNotArray
  | .argumentNotBulk | .emptyCommand | .wrongArgumentCount _ | .incompleteFrame => .malformed
  | .noBucket _ | .unsupportedCommand _ | .amountNotInteger | .amountOutOfRange | .noMembers
  | .invalidHex _ => .badRequest
  | .frameTooLarge .. => .resourceExhausted
  | .transientStoreError _ => .transient
  | .storeError _ | .noStoreServer | .undecodableResponse _ | .connectionReset _
  | .serverLost .. => .store
  | .frameWithoutCode | .payloadTooLarge .. | .codeMismatch .. | .notASet _
  | .unrequestedResponse _ | .unrequestedCacheReply | .unexpectedCacheReply | .unexpectedCacheMiss
  | .responseToCacheRead | .requestNotEncoded => .protocol
  | .transport _ => .transport
  | .record _ => .decode
  | .emptySetBucketType | .frameSizeTooSmall _ => .config

def detail : Failure → String
  | .emptyKey => "empty key"
  | .noKeyComponent raw => "key '" ++ Text.lossy raw ++ "' has no usable key component"
  | .nestedTooDeep => "maximum nesting depth exceeded"
  | .invalidInteger => "invalid integer"
  | .invalidBulkLength length => s!"invalid bulk length {length}"
  | .bulkUnterminated => "missing CRLF after bulk string"
  | .invalidArrayLength length => s!"invalid array length {length}"
  | .unexpectedTypeByte byte =>
      "unexpected type byte 0x" ++ Hex.encode [byte]
  | .commandNotArray => "command must be an array of bulk strings"
  | .argumentNotBulk => "command arguments must be bulk strings"
  | .emptyCommand => "empty command"
  | .wrongArgumentCount command =>
      "wrong number of arguments for '" ++ command ++ "' command"
  | .incompleteFrame => "frame is incomplete"
  | .noBucket key => "key '" ++ Text.lossy key ++ "' has no bucket"
  | .unsupportedCommand command => "unsupported command '" ++ command ++ "'"
  | .amountNotInteger => "value is not an integer or out of range"
  | .amountOutOfRange => "increment out of range"
  | .noMembers => "set update needs at least one member"
  | .invalidHex reason => "invalid hex: " ++ reason
  | .frameTooLarge code size limit =>
      code.name ++ s!" frame of {size} bytes exceeds limit of {limit}"
  | .transientStoreError message => message
  | .storeError message => message
  | .noStoreServer => "no backend server available"
  | .undecodableResponse cause =>
      "undecodable response: " ++ cause.kind.opening ++ cause.detail
  | .connectionReset cause =>
      "backend connection reset: " ++ cause.kind.opening ++ cause.detail
  | .serverLost server reason => s!"backend #{server} " ++ reason
  | .frameWithoutCode => "frame length 0 has no message code"
  | .payloadTooLarge length limit => s!"Payload too large: {length} bytes (max {limit})"
  | .codeMismatch received awaited =>
      received.name ++ " received while awaiting " ++ awaited.name
  | .notASet dataType => s!"set fetch returned data type {dataType}"
  | .unrequestedResponse code => s!"response code {code} with no request outstanding"
  | .unrequestedCacheReply => "cache reply with no request outstanding"
  | .unexpectedCacheReply => "unexpected cache reply"
  | .unexpectedCacheMiss => "unexpected cache miss"
  | .responseToCacheRead => "backend response for a cache read"
  | .requestNotEncoded => "operation has no encoded request"
  | .transport reason => reason
  | .record fault => "failed to decode Protobuf message: " ++ fault.detail
  | .emptySetBucketType => "set bucket type must not be empty"
  | .frameSizeTooSmall size => s!"max frame size {size} leaves no room for a payload"

def message (failure : Failure) : String :=
  failure.kind.opening ++ failure.detail

end Failure

end ReadThrough
