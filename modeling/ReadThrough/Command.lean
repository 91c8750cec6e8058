import ReadThrough.Members
import ReadThrough.Resp.Value
import ReadThrough.Failure

namespace ReadThrough

inductive Command where
  | get (key : Bytes)
  | set (key value : Bytes)
  | del (keys : List Bytes)
  | sadd (key : Bytes) (members : List Bytes)
  | srem (key : Bytes) (members : List Bytes)
  | smembers (key : Bytes)
  | sismember (key member : Bytes)
  | scard (key : Bytes)
  | algebra (op : SetOperator) (dest : Option Bytes) (keys : List Bytes)
  | incr (key : Bytes) (amount : Int64)
  deriving DecidableEq, Repr

inductive CommandWord where
  | get
  | set
  | del
  | sadd
  | srem
  | smembers
  | sismember
  | scard
  | combine (op : SetOperator)
  | store (op : SetOperator)
  | incr
  | decr
  | incrby
  | decrby
  deriving DecidableEq, Repr

namespace CommandWord

def all : List CommandWord :=
  [.get, .set, .del, .sadd, .srem, .smembers, .sismember, .scard, .combine .diff, .combine .inter,
    .combine .union, .store .diff, .store .inter, .store .union, .incr, .decr, .incrby, .decrby]

def name : CommandWord → String
  | .get => "GET"
  | .set => "SET"
  | .del => "DEL"
  | .sadd => "SADD"
  | .srem => "SREM"
  | .smembers => "SMEMBERS"
  | .sismember => "SISMEMBER"
  | .scard => "SCARD"
  | .combine .diff => "SDIFF"
  | .combine .inter => "SINTER"
  | .combine .union => "SUNION"
  | .store .diff => "SDIFFSTORE"
  | .store .inter => "SINTERSTORE"
  | .store .union => "SUNIONSTORE"
  | .incr => "INCR"
  | .decr => "DECR"
  | .incrby => "INCRBY"
  | .decrby => "DECRBY"

def ofBytes? (bytes : Bytes) : Option CommandWord :=
  all.find? fun word => ascii word.name == bytes.map upperByte

theorem mem_all (word : CommandWord) : word ∈ all := by
  cases word with
  | combine op => cases op <;> decide
  | store op => cases op <;> decide
  | _ => decide

theorem ofBytes?_name (word : CommandWord) : ofBytes? (ascii word.name) = some word := by
  cases word with
  | combine op => cases op <;> decide
  | store op => cases op <;> decide
  | _ => decide

theorem name_of_ofBytes? {bytes : Bytes} {word : CommandWord} (h : ofBytes? bytes = some word) :
    bytes.map upperByte = ascii word.name := by
  have := List.find?_some h
  exact (eq_of_beq this).symm

end CommandWord

namespace Command

def word : Command → CommandWord
  | .get _ => .get
  | .set .. => .set
  | .del _ => .del
  | .sadd .. => .sadd
  | .srem .. => .srem
  | .smembers _ => .smembers
  | .sismember .. => .sismember
  | .scard _ => .scard
  | .algebra op none _ => .combine op
  | .algebra op (some _) _ => .store op
  | .incr .. => .incrby

def name (command : Command) : String :=
  command.word.name

def operands : Command → List Bytes
  | .get key | .smembers key | .scard key => [key]
  | .set key value => [key, value]
  | .del keys => keys
  | .sadd key members | .srem key members => key :: members
  | .sismember key member => [key, member]
  | .algebra _ none keys => keys
  | .algebra _ (some dest) keys => dest :: keys
  | .incr key amount => [key, Decimal.ofInt64 amount]

def args (command : Command) : List Bytes :=
  ascii command.name :: command.operands

def amount (text : Bytes) : Except Failure Int64 :=
  match Decimal.int64? text with
  | some n => .ok n
  | none => .error .amountNotInteger

def opposite (n : Int64) : Except Failure Int64 :=
  if n = Int64.minValue then .error .amountOutOfRange else .ok (-n)

def ofOperands (word : CommandWord) (operands : List Bytes) : Except Failure Command :=
  match word, operands with
  | .get, [key] => .ok (.get key)
  | .set, [key, value] => .ok (.set key value)
  | .del, key :: keys => .ok (.del (key :: keys))
  | .sadd, key :: member :: members => .ok (.sadd key (member :: members))
  | .srem, key :: member :: members => .ok (.srem key (member :: members))
  | .smembers, [key] => .ok (.smembers key)
  | .sismember, [key, member] => .ok (.sismember key member)
  | .scard, [key] => .ok (.scard key)
  | .combine op, key :: keys => .ok (.algebra op none (key :: keys))
  | .store op, dest :: key :: keys => .ok (.algebra op (some dest) (key :: keys))
  | .incr, [key] => .ok (.incr key 1)
  | .decr, [key] => .ok (.incr key (-1))
  | .incrby, [key, text] => (amount text).map (.incr key)
  | .decrby, [key, text] => ((amount text).bind opposite).map (.incr key)
  | word, _ => .error (.wrongArgumentCount word.name.toLower)

def ofArgs : List Bytes → Except Failure Command
  | [] => .error .emptyCommand
  | first :: operands =>
      match CommandWord.ofBytes? first with
      | some word => ofOperands word operands
      | none => .error (.unsupportedCommand (Text.lossy first).toUpper)

def wordsOf : List Resp.Value → Except Failure (List Bytes)
  | [] => .ok []
  | .bulk data :: items => (wordsOf items).map (data :: ·)
  | .simple text :: items => (wordsOf items).map (text :: ·)
  | _ :: _ => .error .argumentNotBulk

def ofValue : Resp.Value → Except Failure Command
  | .array items => (wordsOf items).bind ofArgs
  | _ => .error .commandNotArray

end Command

end ReadThrough
