import ReadThrough.CommandLine.Run

namespace ReadThrough.CommandLine

def readInput (invocation : Invocation) : IO String := do
  if invocation.readsInput then
    let stdin ← IO.getStdin
    stdin.readToEnd
  else return ""

def outcomeOf (arguments : List String) : IO Outcome := do
  match Invocation.ofArguments arguments with
  | .error refusal => return refusal.outcome
  | .ok invocation =>
      let draw ← IO.rand 0 1000000
      try
        let input ← readInput invocation
        return invocation.run draw input
      catch _ => return failed (.transport "stream did not contain valid UTF-8")

end ReadThrough.CommandLine

def main (arguments : List String) : IO UInt32 := do
  let outcome ← ReadThrough.CommandLine.outcomeOf arguments
  IO.print outcome.stdout
  IO.eprint outcome.stderr
  return UInt32.ofNat outcome.exit
