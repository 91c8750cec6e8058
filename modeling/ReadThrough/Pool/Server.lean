import ReadThrough.Bytes

namespace ReadThrough.Pool

inductive Tier where
  | cache
  | store
  deriving DecidableEq, Repr

/-- What can be asked of the servers at one moment: the one that owns a key, and those alive in the
order in which they are tried. -/
structure View where
  pick : Tier → Bytes → Option Nat
  live : Tier → List Nat

def hash (key : Bytes) : UInt32 :=
  key.foldl (fun h b => (h ^^^ b.toUInt32) * 0x01000193) 0x811c9dc5

/-- The servers that a request may be sent to again, fixed when the first try has failed. -/
structure Resend where
  servers : Option (List Nat) := none
  deriving DecidableEq, Repr

namespace Resend

def isBuilt (resend : Resend) : Bool :=
  resend.servers.isSome

def remaining (resend : Resend) : Nat :=
  (resend.servers.getD []).length

def plan (live : List Nat) (primary maxResend : Nat) : List Nat :=
  (live.filter (· ≠ primary)).take (maxResend - 1)

theorem primary_not_mem_plan (live : List Nat) (primary maxResend : Nat) :
    primary ∉ plan live primary maxResend := fun h => by
  have := List.mem_of_mem_take h
  simp at this

theorem nodup_plan {live : List Nat} (h : live.Nodup) (primary maxResend : Nat) :
    (plan live primary maxResend).Nodup :=
  ((List.take_sublist _ _).trans List.filter_sublist).nodup h

theorem length_plan_le (live : List Nat) (primary maxResend : Nat) :
    (plan live primary maxResend).length ≤ maxResend - 1 := by
  simp only [plan, List.length_take]
  omega

/-- The server to try next. `live` counts only when it is asked for the first time. -/
def next (resend : Resend) (live : List Nat) (primary maxResend : Nat) : Option Nat × Resend :=
  match resend.servers.getD (plan live primary maxResend) with
  | [] => (none, ⟨some []⟩)
  | server :: servers => (some server, ⟨some servers⟩)

end Resend

end ReadThrough.Pool
