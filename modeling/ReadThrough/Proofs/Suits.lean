import ReadThrough.Proofs.Outcomes
import ReadThrough.Store.Response

namespace ReadThrough.Store

inductive Response.Suits : RequestKind → Response → Prop where
  | found (siblings : List Sibling) (vclock : Option Bytes) : Suits .get (.found siblings vclock)
  | putAck (vclock : Option Bytes) : Suits .put (.putAck vclock)
  | deleteAck : Suits .delete .deleteAck
  | updateAck : Suits .setUpdate .updateAck
  | set (members : List Bytes) (context : Option Bytes) : Suits .setFetch (.set members context)
  | fetched (value : Int64) : Suits .counterFetch (.counter value)
  | updated (value : Int64) : Suits .counterUpdate (.counter value)

namespace Response

variable {kind : RequestKind} {payload : Bytes} {code : UInt8} {response : Response}

theorem suits_bareAck (h : kind.hasBareAck = true) : Suits kind (bareAck kind) := by
  cases kind with
  | put => exact .putAck none
  | delete => exact .deleteAck
  | setUpdate => exact .updateAck
  | get | setFetch | counterFetch | counterUpdate => cases h

theorem suits_ofSet {message : Message.DtFetchResp} (h : ofSet message = .ok response) :
    Suits .setFetch response := by
  unfold ofSet at h
  split at h
  · cases h
    exact .set [] message.context
  · split at h
    · cases h
    · cases h
      exact .set _ message.context

theorem suits_of_decodeAwaited (h : decodeAwaited kind payload = .ok response) :
    Suits kind response := by
  cases kind with
  | get =>
      obtain ⟨message, -, rfl⟩ := map_eq_ok h
      exact .found _ _
  | put =>
      obtain ⟨message, -, rfl⟩ := map_eq_ok h
      exact .putAck _
  | delete =>
      cases h
      exact .deleteAck
  | setUpdate =>
      obtain ⟨message, -, rfl⟩ := map_eq_ok h
      exact .updateAck
  | setFetch =>
      obtain ⟨message, -, hm⟩ := bind_eq_ok h
      exact suits_ofSet hm
  | counterFetch =>
      obtain ⟨message, -, rfl⟩ := map_eq_ok h
      exact .fetched _
  | counterUpdate =>
      obtain ⟨message, -, rfl⟩ := map_eq_ok h
      exact .updated _

theorem suits_of_decode (h : decode code payload kind = .ok response) :
    response.isError = true ∨ Suits kind response := by
  unfold decode at h
  split at h
  · cases h
    exact Or.inl rfl
  · split at h
    · split at h
      · next bare =>
          cases h
          rw [Bool.and_eq_true] at bare
          exact Or.inr (suits_bareAck bare.2)
      · obtain ⟨message, -, rfl⟩ := map_eq_ok h
        exact Or.inl rfl
    · split at h
      · cases h
      · exact Or.inr (suits_of_decodeAwaited h)

end Response

end ReadThrough.Store
