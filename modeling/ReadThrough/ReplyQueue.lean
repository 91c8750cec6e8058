namespace ReadThrough

structure ReplyQueue (α : Type) where
  next : Nat := 0
  slots : List (Nat × Option α) := []
  deriving DecidableEq, Repr

namespace ReplyQueue

variable {α : Type}

def reserve (queue : ReplyQueue α) : Nat × ReplyQueue α :=
  (queue.next, { next := queue.next + 1, slots := queue.slots ++ [(queue.next, none)] })

def fillSlot (slot : Nat) (reply : α) : List (Nat × Option α) → Option (List (Nat × Option α))
  | [] => none
  | (n, held) :: rest =>
      if n = slot then
        match held with
        | none => some ((n, some reply) :: rest)
        | some _ => none
      else (fillSlot slot reply rest).map ((n, held) :: ·)

def fill? (queue : ReplyQueue α) (slot : Nat) (reply : α) : Option (ReplyQueue α) :=
  (fillSlot slot reply queue.slots).map fun slots => { queue with slots }

def ready : List (Nat × Option α) → List (Nat × α) × List (Nat × Option α)
  | (slot, some reply) :: rest =>
      let (replies, waiting) := ready rest
      ((slot, reply) :: replies, waiting)
  | slots => ([], slots)

theorem ready_length (slots : List (Nat × Option α)) :
    (ready slots).1.length + (ready slots).2.length = slots.length := by
  induction slots with
  | nil => rfl
  | cons s rest ih =>
      obtain ⟨slot, held⟩ := s
      cases held with
      | none => simp [ready]
      | some reply =>
          simp only [ready, List.length_cons]
          omega

def drain (queue : ReplyQueue α) : List (Nat × α) × ReplyQueue α :=
  let (replies, waiting) := ready queue.slots
  (replies, { queue with slots := waiting })

def outstanding (queue : ReplyQueue α) : Nat :=
  queue.slots.length

end ReplyQueue

end ReadThrough
