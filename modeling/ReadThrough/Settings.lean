import ReadThrough.Failure

namespace ReadThrough

structure Quorum where
  r : Option UInt32 := none
  pr : Option UInt32 := none
  w : Option UInt32 := none
  pw : Option UInt32 := none
  n : Option UInt32 := none
  basicQuorum : Option Bool := none
  sloppyQuorum : Option Bool := none
  notFoundOk : Option Bool := none
  deletedVclock : Option Bool := none
  timeout : Option UInt32 := none
  deriving DecidableEq, Repr

structure Settings where
  name : String := "default"
  quorum : Quorum := {}
  maxResend : Nat := 1
  setBucketType : String := "sets"
  maxFrameSize : Nat := 16 * 1024 * 1024
  serverTtl : Nat := 0
  vclockCapacity : Nat := 1024
  deriving DecidableEq, Repr

namespace Settings

def frameHeader : Nat := 5

def validate (settings : Settings) : Except Failure Unit :=
  if settings.setBucketType = "" then .error .emptySetBucketType
  else if settings.maxFrameSize ≤ frameHeader then
    .error (.frameSizeTooSmall settings.maxFrameSize)
  else .ok ()

def effectiveMaxResend (settings : Settings) : Nat :=
  max settings.maxResend 1

end Settings

end ReadThrough
