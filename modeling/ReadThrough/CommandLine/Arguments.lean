import ReadThrough.Settings
import ReadThrough.Store.Request
import ReadThrough.Text.Decimal

namespace ReadThrough.CommandLine

inductive Task where
  | split (key : String)
  | encode (words : List String)
  | decode (awaited : Store.RequestKind) (hex : String)
  deriving DecidableEq, Repr

structure Invocation where
  settings : Settings
  task : Task
  deriving DecidableEq, Repr

inductive Refusal where
  | help
  | usage
  deriving DecidableEq, Repr

inductive Shape where
  | word (text : String)
  | option (name : String) (value : Option String)
  | flags (names : List Char)
  | endOfOptions
  deriving DecidableEq, Repr

def Shape.of (argument : String) : Shape :=
  match argument.toList with
  | ['-', '-'] => .endOfOptions
  | '-' :: '-' :: rest =>
      let name := rest.takeWhile (· ≠ '=')
      match rest.drop name.length with
      | [] => .option (String.ofList name) none
      | _ :: value => .option (String.ofList name) (some (String.ofList value))
  | '-' :: c :: rest => .flags (c :: rest)
  | _ => .word argument

def refuseFlags : List Char → Refusal
  | 'h' :: _ => .help
  | _ => .usage

def refuseOption (name : String) (value : Option String) : Refusal :=
  if name = "help" ∧ value = none then .help else .usage

def number (text : String) : Except Refusal UInt32 :=
  match Decimal.int? (Text.utf8 text) with
  | some n => if 0 ≤ n ∧ n < 4294967296 then .ok (UInt32.ofNat n.toNat) else .error .usage
  | none => .error .usage

def once {α : Type} (given : Option α) (value : Except Refusal α) : Except Refusal (Option α) :=
  match given with
  | some _ => .error .usage
  | none => value.map some

structure Options where
  r : Option UInt32 := none
  w : Option UInt32 := none
  n : Option UInt32 := none
  timeout : Option UInt32 := none
  setBucketType : Option String := none
  deriving DecidableEq, Repr

def Options.set (options : Options) (name value : String) : Except Refusal Options :=
  match name with
  | "r" => (once options.r (number value)).map fun r => { options with r }
  | "w" => (once options.w (number value)).map fun w => { options with w }
  | "n" => (once options.n (number value)).map fun n => { options with n }
  | "timeout-ms" =>
      (once options.timeout (number value)).map fun timeout => { options with timeout }
  | "set-bucket-type" =>
      (once options.setBucketType (.ok value)).map fun setBucketType =>
        { options with setBucketType }
  | _ => .error .usage

def Options.names : List String :=
  ["r", "w", "n", "timeout-ms", "set-bucket-type"]

def Options.settings (options : Options) : Settings where
  name := "cli"
  quorum :=
    { r := options.r, w := options.w, n := options.n, timeout := options.timeout }
  setBucketType := options.setBucketType.getD "sets"
  vclockCapacity := 0

def words (room : Option Nat) (ended : Bool) : List String → Except Refusal (List String)
  | [] => .ok []
  | argument :: rest =>
      match if ended then .word argument else Shape.of argument with
      | .word text =>
          if room = some 0 then .error .usage
          else (words (room.map (· - 1)) ended rest).map (text :: ·)
      | .endOfOptions => words room true rest
      | .flags names => .error (refuseFlags names)
      | .option name value => .error (refuseOption name value)

def kindOf : String → Except Refusal Store.RequestKind
  | "get" => .ok .get
  | "put" => .ok .put
  | "delete" => .ok .delete
  | "set-update" => .ok .setUpdate
  | "set-fetch" => .ok .setFetch
  | "counter-fetch" => .ok .counterFetch
  | "counter-update" => .ok .counterUpdate
  | _ => .error .usage

def decodeWords (awaited : Option Store.RequestKind) (hex : Option String) :
    List String → Except Refusal (Option Store.RequestKind × Option String)
  | [] => .ok (awaited, hex)
  | argument :: rest =>
      match Shape.of argument with
      | .word text => (once hex (.ok text)).bind fun hex => decodeWords awaited hex rest
      | .endOfOptions =>
          (rest.foldlM (fun hex text => once hex (.ok text)) hex).map fun hex => (awaited, hex)
      | .flags names => .error (refuseFlags names)
      | .option name value =>
          if name ≠ "expect" then .error (refuseOption name value)
          else
            match value, rest with
            | some text, rest =>
                (once awaited (kindOf text)).bind fun awaited => decodeWords awaited hex rest
            | none, [] => .error .usage
            | none, next :: rest =>
                match Shape.of next with
                | .word text =>
                    (once awaited (kindOf text)).bind fun awaited => decodeWords awaited hex rest
                | _ => .error .usage

def taskOf (name : String) (arguments : List String) : Except Refusal Task :=
  match name with
  | "split" => do
      match ← words (some 1) false arguments with
      | [key] => return .split key
      | _ => throw .usage
  | "encode" => do
      match ← words none false arguments with
      | [] => throw .usage
      | texts => return .encode texts
  | "decode" => do
      match ← decodeWords none none arguments with
      | (some awaited, some hex) => return .decode awaited hex
      | _ => throw .usage
  | "help" =>
      match arguments with
      | [] | ["split"] | ["encode"] | ["decode"] | ["help"] => .error .help
      | _ => .error .usage
  | _ => .error .usage

def parse (options : Options) : List String → Except Refusal Invocation
  | [] => .error .usage
  | argument :: rest =>
      match Shape.of argument with
      | .word name =>
          (taskOf name rest).map fun task => { settings := options.settings, task }
      | .endOfOptions => .error .usage
      | .flags names => .error (refuseFlags names)
      | .option name value =>
          if ¬ name ∈ Options.names then .error (refuseOption name value)
          else
            match value, rest with
            | some text, rest =>
                (options.set name text).bind fun options => parse options rest
            | none, [] => .error .usage
            | none, next :: rest =>
                match Shape.of next with
                | .word text => (options.set name text).bind fun options => parse options rest
                | _ => .error .usage

def Invocation.ofArguments (arguments : List String) : Except Refusal Invocation :=
  parse {} arguments

end ReadThrough.CommandLine
