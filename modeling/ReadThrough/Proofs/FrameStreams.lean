import ReadThrough.Proofs.Incremental
import ReadThrough.Proofs.Requests

namespace ReadThrough.Store.Frame

variable {frame : Frame} {bytes rest : Bytes}

theorem size_of_decode (h : decode bytes = .complete frame rest) :
    frame.size + rest.length = bytes.length := by
  unfold decode at h
  split at h
  · next a b c d code body =>
      dsimp only at h
      split at h
      · cases h
      · split at h
        · cases h
        · split at h
          · cases h
          · next whole =>
              cases h
              rw [List.length_take] at whole
              simp only [size, Settings.frameHeader, List.length_take, List.length_drop,
                List.length_cons]
              omega
  · cases h

theorem taken_of_decode (h : decode bytes = .complete frame rest) :
    rest = bytes.drop frame.size ∧ Taken decode bytes frame frame.size := by
  obtain ⟨n, count, left, taken⟩ := composed_decode.taken (decode_shorter h) h
  obtain rfl : n = frame.size := by
    have size := size_of_decode h
    omega
  exact ⟨left, taken⟩

theorem decode_of_front (short : frame.payload.length < maxLength) {front : Bytes}
    (h : front <+: frame.encode) (part : front ≠ frame.encode) : decode front = .incomplete := by
  have alone := decode_encode short []
  rw [List.append_nil] at alone
  have lt : front.length < frame.size := by
    rw [← length_encode]
    exact Nat.lt_of_le_of_ne h.length_le fun same => part (h.eq_of_length same)
  rw [List.prefix_iff_eq_take.mp h]
  exact (taken_of_decode alone).2.short _ lt

structure SelfDelimiting : Prop where
  stream : ∀ frames : List Frame, (∀ frame ∈ frames, frame.payload.length < maxLength) →
    reader.stream (frames.flatMap encode) = (frames, .waiting [])
  part : ∀ frame : Frame, frame.payload.length < maxLength → ∀ front, front <+: frame.encode →
    front ≠ frame.encode → decode front = .incomplete
  complete : ∀ bytes frame rest, decode bytes = .complete frame rest →
    Settings.frameHeader ≤ frame.size ∧ rest = bytes.drop frame.size ∧
      Taken decode bytes frame frame.size
  refused : ∀ bytes why, decode bytes = .refused why →
    ∀ more, decode (bytes ++ more) = .refused why
  sent : ∀ (request : Request) limit, request.checkSize limit = .ok () →
    request.frame.payload.length < maxLength ∧
      ∀ rest, decode (request.encode ++ rest) = .complete request.frame rest

theorem selfDelimiting_frames : SelfDelimiting where
  stream _ short := Resp.stream_flatMap reader (fun frame hm => decode_encode (short frame hm)) rfl
  part _ short _ h := decode_of_front short h
  complete _ _ _ h := ⟨Nat.le_add_right _ _, taken_of_decode h⟩
  refused _ _ h more := composed_decode.refused_append h more
  sent _ _ fits := by
    obtain ⟨-, short⟩ := Request.checkSize_eq_ok fits
    exact ⟨short, decode_encode short⟩

end ReadThrough.Store.Frame
