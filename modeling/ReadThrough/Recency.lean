namespace ReadThrough

structure Recency (κ α : Type) where
  capacity : Nat
  entries : List (κ × α) := []
  deriving DecidableEq, Repr

namespace Recency

variable {κ α : Type} [DecidableEq κ]

def peek? (memory : Recency κ α) (key : κ) : Option α :=
  (memory.entries.find? fun e => e.1 = key).map Prod.snd

def others (memory : Recency κ α) (key : κ) : List (κ × α) :=
  memory.entries.filter fun e => e.1 ≠ key

def touch (memory : Recency κ α) (key : κ) : Recency κ α :=
  match memory.peek? key with
  | none => memory
  | some value => { memory with entries := (key, value) :: memory.others key }

def remember (memory : Recency κ α) (key : κ) (value : α) : Recency κ α :=
  { memory with entries := ((key, value) :: memory.others key).take memory.capacity }

theorem length_remember (memory : Recency κ α) (key : κ) (value : α) :
    (memory.remember key value).entries.length ≤ memory.capacity := by
  simp only [remember, List.length_take]
  omega

theorem peek?_remember_self {memory : Recency κ α} (h : memory.capacity ≠ 0) (key : κ)
    (value : α) : (memory.remember key value).peek? key = some value := by
  obtain ⟨n, hn⟩ := Nat.exists_eq_succ_of_ne_zero h
  simp [peek?, remember, hn]

end Recency

end ReadThrough
