import ReadThrough.CommandLine.Arguments
import ReadThrough.CommandLine.Layout
import ReadThrough.Pool.Roster
import ReadThrough.Proxy.Event

namespace ReadThrough.CommandLine

structure Outcome where
  exit : Nat
  stdout : String := ""
  stderr : String := ""
  deriving DecidableEq, Repr

def failed (why : Failure) : Outcome :=
  { exit := 1, stderr := "error: " ++ why.message ++ "\n" }

def splitLines (key : Key) : List String :=
  ["namespace: " ++ Text.lossy key.namespaceOrDefault,
    "bucket:    " ++ Text.lossy key.bucket,
    "key:       " ++ Text.lossy key.name,
    "canonical: " ++ Text.lossy key.join]

def replyLine (reply : Reply) : String :=
  "reply: " ++ Text.escapeLine (Text.lossy reply.encode)

def actionLine : Action → String
  | .store server _ request =>
      let frame := request.frame
      let size := frame.size
      let code := frame.code
      s!"backend #{server} code {code} ({size} bytes): " ++ Hex.encode frame.encode
  | .reply _ _ value => replyLine value
  | .cache server _ command =>
      s!"cache #{server}: " ++ Text.escapeLine (Text.lossy command.encode)
  | .closeCache server => s!"close cache #{server}"
  | .closeStore server => s!"close backend #{server}"

def world : World :=
  { pool := fun _ => (Pool.Roster.ofNames [] ["backend"]).view 0, draw := fun _ => 0 }

def encodeLines (settings : Settings) (texts : List String) : Except Failure (List String) :=
  (Command.ofArgs (texts.map Text.utf8)).map fun command =>
    ((Proxy.start settings {}).clientCommand world 0 command).outbox.map actionLine

def trim (text : String) : String :=
  String.ofList
    (((text.toList.dropWhile Text.isSpace).reverse.dropWhile Text.isSpace).reverse)

def hexReason : Hex.Fault → String
  | .oddLength => "Odd number of digits"
  | .character byte position =>
      "Invalid character " ++ Text.quotedChar (Char.ofNat byte.toNat) ++
        s!" at position {position}"

def readHex (text : String) : Except Failure Bytes :=
  match Hex.decode (Text.utf8 (trim text)) with
  | .ok bytes => .ok bytes
  | .error fault => .error (.invalidHex (hexReason fault))

def readFrame (bytes : Bytes) : Except Failure (Store.Frame × Bytes) :=
  match Store.Frame.decode bytes with
  | .complete frame rest => .ok (frame, rest)
  | .incomplete => .error .incompleteFrame
  | .refused why => .error why

def trailing (rest : Bytes) : List String :=
  if rest = [] then []
  else
    let count := rest.length
    [s!"({count} trailing bytes ignored)"]

def decodeLines (draw : Nat) (awaited : Store.RequestKind) (text : String) :
    Except Failure (List String) := do
  let bytes ← readHex text
  let (frame, rest) ← readFrame bytes
  let response ← Store.Response.decode frame.code frame.payload awaited
  return [(Layout.response response).render 0, replyLine (response.reply draw)] ++ trailing rest

def Invocation.readsInput (invocation : Invocation) : Bool :=
  invocation.settings.validate.isOk &&
    match invocation.task with
    | .decode _ hex => hex == "-"
    | _ => false

def Task.lines (settings : Settings) (draw : Nat) (stdin : String) :
    Task → Except Failure (List String)
  | .split key => (Key.split (Text.utf8 key)).map splitLines
  | .encode texts => encodeLines settings texts
  | .decode awaited hex => decodeLines draw awaited (if hex = "-" then stdin else hex)

def Invocation.run (invocation : Invocation) (draw : Nat) (stdin : String) : Outcome :=
  let lines := do
    invocation.settings.validate
    invocation.task.lines invocation.settings draw stdin
  match lines with
  | .ok lines => { exit := 0, stdout := String.join (lines.map (· ++ "\n")) }
  | .error why => failed why

def usageText : String :=
  "usage: read-through [--r N] [--w N] [--n N] [--timeout-ms N] [--set-bucket-type NAME] " ++
    "(split KEY | encode WORD... | decode --expect KIND HEX)\n"

def Refusal.outcome : Refusal → Outcome
  | .help => { exit := 0, stderr := usageText }
  | .usage => { exit := 2, stderr := usageText }

def run (arguments : List String) (draw : Nat) (stdin : String) : Outcome :=
  match Invocation.ofArguments arguments with
  | .ok invocation => invocation.run draw stdin
  | .error refusal => refusal.outcome

end ReadThrough.CommandLine
