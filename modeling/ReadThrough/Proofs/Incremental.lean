import ReadThrough.Proofs.Segments

namespace ReadThrough

variable {α β : Type} {read : Bytes → Verdict α} {bytes rest : Bytes} {value : α}

def Exact (read : Bytes → Verdict α) : Prop :=
  ∀ bytes value rest, read bytes = .complete value rest →
    ∃ front, bytes = front ++ rest ∧ ∀ more, read (front ++ more) = .complete value more

theorem Exact.bind {next : α → Bytes → Verdict β} (h : Exact read)
    (h' : ∀ value, Exact (next value)) : Exact fun bytes => (read bytes).bind next := by
  intro bytes result rest said
  obtain ⟨value, behind, first, second⟩ := Verdict.bind_eq_complete said
  obtain ⟨front, rfl, alone⟩ := h bytes value behind first
  obtain ⟨middle, rfl, alone'⟩ := h' value behind result rest second
  refine ⟨front ++ middle, (List.append_assoc _ _ _).symm, fun more => ?_⟩
  simp only [List.append_assoc, alone, Verdict.bind, alone']

theorem Composed.exact (h : Composed read) : Exact read := by
  induction h with
  | complete value =>
      rintro bytes _ rest ⟨⟩
      exact ⟨[], rfl, fun _ => rfl⟩
  | refused why =>
      intro bytes value rest said
      cases said
  | byte =>
      intro bytes b rest said
      cases bytes with
      | nil => cases said
      | cons b rest =>
          cases said
          exact ⟨[b], rfl, fun _ => rfl⟩
  | stretch length =>
      intro bytes taken rest said
      unfold Verdict.stretch at said
      split at said
      · next enough =>
          cases said
          refine ⟨bytes.take length, (List.take_append_drop _ _).symm, fun more => ?_⟩
          have exactly : (bytes.take length).length = length := List.length_take_of_le enough
          have still : length ≤ (bytes.take length ++ more).length := by
            rw [List.length_append]
            omega
          rw [Verdict.stretch, if_pos still, List.take_left' exactly, List.drop_left' exactly]
      · cases said
  | line =>
      intro bytes text rest said
      unfold Verdict.line at said
      split at said
      · cases said
      · next text' rest' split =>
          cases said
          obtain ⟨rfl, one⟩ := Resp.takeLine_eq_some_iff.mp split
          refine ⟨text ++ crlf, rfl, fun more => ?_⟩
          rw [Verdict.line, Resp.takeLine_append one]
  | bind _ _ ih ih' => exact ih.bind ih'

structure Taken (read : Bytes → Verdict α) (bytes : Bytes) (value : α) (n : Nat) : Prop where
  pos : 0 < n
  le : n ≤ bytes.length
  whole : ∀ more, read (bytes ++ more) = .complete value ((bytes ++ more).drop n)
  only : read (bytes.take n) = .complete value []
  short : ∀ k, k < n → read (bytes.take k) = .incomplete

theorem Steady.incomplete_of_short (steady : Steady read) (h : read bytes = .complete value rest)
    {k : Nat} (short : k + rest.length < bytes.length) : read (bytes.take k) = .incomplete := by
  by_contra said
  have later := steady (bytes.take k) (bytes.drop k) said
  rw [List.take_append_drop, h] at later
  cases verdict : read (bytes.take k) with
  | incomplete => exact said verdict
  | refused why =>
      rw [verdict] at later
      cases later
  | complete value' rest' =>
      rw [verdict] at later
      have same := congrArg List.length (Verdict.complete.inj later).2
      rw [List.length_append, List.length_drop] at same
      omega

theorem Composed.taken (composed : Composed read) (shorter : rest.length < bytes.length)
    (h : read bytes = .complete value rest) :
    ∃ n, n + rest.length = bytes.length ∧ rest = bytes.drop n ∧ Taken read bytes value n := by
  obtain ⟨front, rfl, alone⟩ := composed.exact bytes value rest h
  rw [List.length_append] at shorter
  refine ⟨front.length, List.length_append.symm, List.drop_left.symm, by omega, ?_, ?_, ?_, ?_⟩
  · rw [List.length_append]
    omega
  · intro more
    rw [List.append_assoc, alone, List.drop_left]
  · rw [List.take_left]
    have only := alone []
    rwa [List.append_nil] at only
  · intro k short
    refine composed.steady.incomplete_of_short h ?_
    rw [List.length_append]
    omega

theorem Composed.refused_append (composed : Composed read) {why : Failure}
    (h : read bytes = .refused why) (more : Bytes) : read (bytes ++ more) = .refused why := by
  rw [composed.steady bytes more (by simp [h]), h]
  rfl

structure Incremental (read : Bytes → Verdict α) : Prop where
  complete : ∀ bytes value rest, read bytes = .complete value rest →
    ∃ n, rest = bytes.drop n ∧ Taken read bytes value n
  refused : ∀ bytes why, read bytes = .refused why → ∀ more, read (bytes ++ more) = .refused why

theorem Resp.incremental_parse : Incremental Resp.parse where
  complete bytes value rest h := by
    obtain ⟨n, -, left, taken⟩ := Resp.composed_parse.taken (Resp.parseWithin_shorter h) h
    exact ⟨n, left, taken⟩
  refused _ _ h more := Resp.composed_parse.refused_append h more

end ReadThrough
