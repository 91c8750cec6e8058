import ReadThrough.Failure

namespace ReadThrough

inductive Verdict (α : Type) where
  | complete (value : α) (rest : Bytes)
  | incomplete
  | refused (why : Failure)
  deriving DecidableEq, Repr

namespace Verdict

variable {α β : Type}

def bind (verdict : Verdict α) (next : α → Bytes → Verdict β) : Verdict β :=
  match verdict with
  | .complete value rest => next value rest
  | .incomplete => .incomplete
  | .refused why => .refused why

def repeated (read : Bytes → Verdict α) : Nat → Bytes → Verdict (List α)
  | 0, bytes => .complete [] bytes
  | n + 1, bytes =>
      (read bytes).bind fun value rest =>
        (repeated read n rest).bind fun values rest => .complete (value :: values) rest

theorem bind_eq_complete {v : Verdict α} {f : α → Bytes → Verdict β} {b : β} {r : Bytes}
    (h : v.bind f = .complete b r) : ∃ a s, v = .complete a s ∧ f a s = .complete b r := by
  cases v with
  | complete a s => exact ⟨a, s, rfl, h⟩
  | incomplete => simp [bind] at h
  | refused why => simp [bind] at h

theorem repeated_length_le {read : Bytes → Verdict α}
    (shorter : ∀ {bytes value rest}, read bytes = .complete value rest →
      rest.length ≤ bytes.length) :
    ∀ {n : Nat} {bytes : Bytes} {values : List α} {rest : Bytes},
      repeated read n bytes = .complete values rest → rest.length ≤ bytes.length := by
  intro n
  induction n with
  | zero =>
      intro bytes values rest h
      simp only [repeated, complete.injEq] at h
      simp [h.2]
  | succ n ih =>
      intro bytes values rest h
      obtain ⟨a, s, ha, h⟩ := bind_eq_complete h
      obtain ⟨as, t, has, h⟩ := bind_eq_complete h
      have hs := shorter ha
      have ht := ih has
      simp only [complete.injEq] at h
      rw [← h.2]
      omega

end Verdict

structure Reader (α : Type) where
  read : Bytes → Verdict α
  shorter : ∀ {bytes value rest}, read bytes = .complete value rest → rest.length < bytes.length

inductive Ending where
  | waiting (rest : Bytes)
  | refused (why : Failure)
  deriving DecidableEq, Repr

def Reader.stream {α : Type} (reader : Reader α) (bytes : Bytes) : List α × Ending :=
  match h : reader.read bytes with
  | .incomplete => ([], .waiting bytes)
  | .refused why => ([], .refused why)
  | .complete value rest =>
      have := reader.shorter h
      let (values, ending) := reader.stream rest
      (value :: values, ending)
termination_by bytes.length

section Stream

variable {α : Type} (reader : Reader α) {bytes rest : Bytes} {value : α} {why : Failure}

theorem Reader.stream_of_incomplete (h : reader.read bytes = .incomplete) :
    reader.stream bytes = ([], .waiting bytes) := by
  rw [Reader.stream]
  split <;> simp_all

theorem Reader.stream_of_refused (h : reader.read bytes = .refused why) :
    reader.stream bytes = ([], .refused why) := by
  rw [Reader.stream]
  split <;> simp_all

theorem Reader.stream_of_complete (h : reader.read bytes = .complete value rest) :
    reader.stream bytes = (value :: (reader.stream rest).1, (reader.stream rest).2) := by
  rw [Reader.stream]
  split <;> simp_all

end Stream

end ReadThrough
