import ReadThrough.Proofs.Readers

namespace ReadThrough

def Verdict.followed {α : Type} (more : Bytes) : Verdict α → Verdict α
  | .complete value rest => .complete value (rest ++ more)
  | .incomplete => .incomplete
  | .refused why => .refused why

def Steady {α : Type} (read : Bytes → Verdict α) : Prop :=
  ∀ bytes more, read bytes ≠ .incomplete → read (bytes ++ more) = (read bytes).followed more

section Steady

variable {α β : Type} {read : Bytes → Verdict α}

theorem Steady.bind {next : α → Bytes → Verdict β} (h : Steady read)
    (h' : ∀ value, Steady (next value)) : Steady fun bytes => (read bytes).bind (next · ·) := by
  intro bytes more said
  have first := h bytes more
  dsimp only at said ⊢
  cases verdict : read bytes with
  | incomplete => exact absurd (by rw [verdict]; rfl) said
  | refused why =>
      rw [verdict] at first
      rw [first (by simp)]
      rfl
  | complete value rest =>
      rw [verdict] at first said
      rw [first (by simp)]
      exact h' value rest more said

theorem Composed.steady (h : Composed read) : Steady read := by
  induction h with
  | complete value => exact fun _ _ _ => rfl
  | refused why => exact fun _ _ _ => rfl
  | byte =>
      intro bytes more said
      cases bytes with
      | nil => exact absurd rfl said
      | cons b rest => rfl
  | stretch length =>
      intro bytes more said
      unfold Verdict.stretch at said ⊢
      by_cases enough : length ≤ bytes.length
      · have still : length ≤ (bytes ++ more).length := by
          rw [List.length_append]
          omega
        rw [if_pos enough, if_pos still, List.take_append_of_le_length enough,
          List.drop_append_of_le_length enough]
        rfl
      · exact absurd (if_neg enough) said
  | line =>
      intro bytes more said
      unfold Verdict.line at said ⊢
      cases split : Resp.takeLine bytes with
      | none => exact absurd (by rw [split]) said
      | some taken =>
          obtain ⟨text, rest⟩ := taken
          obtain ⟨rfl, one⟩ := Resp.takeLine_eq_some_iff.mp split
          rw [List.append_assoc, Resp.takeLine_append one]
          rfl
  | bind _ _ ih ih' => exact ih.bind ih'

end Steady

theorem Resp.steady_parse : Steady Resp.reader.read :=
  Resp.composed_parse.steady

theorem Store.Frame.steady_decode : Steady Store.Frame.reader.read :=
  Store.Frame.composed_decode.steady

namespace Reader

variable {α : Type} {reader : Reader α} {bytes rest : Bytes} {values : List α} {why : Failure}

theorem of_stream_waiting (h : reader.stream bytes = (values, .waiting rest)) :
    reader.read rest = .incomplete := by
  induction bytes using Reader.stream.induct reader generalizing values with
  | case1 bytes read =>
      rw [reader.stream_of_incomplete read] at h
      cases h
      exact read
  | case2 bytes why read =>
      rw [reader.stream_of_refused read] at h
      cases h
  | case3 bytes value behind read _ _ _ _ ih =>
      rw [reader.stream_of_complete read] at h
      exact ih (Prod.ext rfl (Prod.mk.inj h).2)

theorem length_stream_le (reader : Reader α) (bytes : Bytes) :
    (reader.stream bytes).1.length ≤ bytes.length := by
  induction bytes using Reader.stream.induct reader with
  | case1 bytes read => rw [reader.stream_of_incomplete read]; exact Nat.zero_le _
  | case2 bytes why read => rw [reader.stream_of_refused read]; exact Nat.zero_le _
  | case3 bytes value behind read shorter _ _ _ ih =>
      rw [reader.stream_of_complete read]
      exact Nat.le_trans (Nat.succ_le_succ ih) shorter

variable (steady : Steady reader.read) (more : Bytes)

include steady

theorem stream_append_of_refused (h : reader.stream bytes = (values, .refused why)) :
    reader.stream (bytes ++ more) = (values, .refused why) := by
  induction bytes using Reader.stream.induct reader generalizing values with
  | case1 bytes read =>
      rw [reader.stream_of_incomplete read] at h
      cases h
  | case2 bytes why read =>
      rw [reader.stream_of_refused read] at h
      cases h
      refine reader.stream_of_refused ?_
      rw [steady bytes more (by simp [read]), read]
      rfl
  | case3 bytes value behind read _ _ _ _ ih =>
      rw [reader.stream_of_complete read] at h
      obtain ⟨rfl, ending⟩ := Prod.mk.inj h
      have read' : reader.read (bytes ++ more) = .complete value (behind ++ more) := by
        rw [steady bytes more (by simp [read]), read]
        rfl
      rw [reader.stream_of_complete read', ih (Prod.ext rfl ending)]

theorem stream_append_of_waiting (h : reader.stream bytes = (values, .waiting rest)) :
    reader.stream (bytes ++ more) =
      (values ++ (reader.stream (rest ++ more)).1, (reader.stream (rest ++ more)).2) := by
  induction bytes using Reader.stream.induct reader generalizing values with
  | case1 bytes read =>
      rw [reader.stream_of_incomplete read] at h
      cases h
      rfl
  | case2 bytes why read =>
      rw [reader.stream_of_refused read] at h
      cases h
  | case3 bytes value behind read _ _ _ _ ih =>
      rw [reader.stream_of_complete read] at h
      obtain ⟨rfl, ending⟩ := Prod.mk.inj h
      have read' : reader.read (bytes ++ more) = .complete value (behind ++ more) := by
        rw [steady bytes more (by simp [read]), read]
        rfl
      rw [reader.stream_of_complete read', ih (Prod.ext rfl ending)]
      rfl

end Reader

end ReadThrough
