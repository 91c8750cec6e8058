import ReadThrough.Proofs.Growth
import ReadThrough.Proofs.Responses

namespace ReadThrough.Proxy

inductive Fault (w : World) (p : Proxy) (server : Nat) (ending : Ending) :
    List Store.Frame → Failure → List Move → Prop where
  | unreadable {why : Failure} : ending = .refused why →
      Fault w p server ending [] why (storeCloseMoves p server why)
  | unrequested {frame : Store.Frame} {frames : List Store.Frame} : p.pendingStore server = [] →
      Fault w p server ending (frame :: frames) (.unrequestedResponse frame.code)
        (storeCloseMoves p server (.unrequestedResponse frame.code))
  | undecodable {frame : Store.Frame} {frames : List Store.Frame} {id : Nat}
      {kind : Store.RequestKind} {rest : List (Nat × Store.RequestKind)} {why : Failure} :
      p.pendingStore server = (id, kind) :: rest →
      Store.Response.decode frame.code frame.payload kind = .error why →
      Fault w p server ending (frame :: frames) why (.storeAnswer server frame ::
        storeCloseMoves ((Move.storeAnswer server frame).apply w p) server why)

inductive CacheFault (p : Proxy) (server : Nat) (ending : Ending) :
    List Resp.Value → List Move → Prop where
  | unreadable {why : Failure} : ending = .refused why →
      CacheFault p server ending [] (.cacheProtest server :: cacheLossMoves p server)
  | unrequested {value : Resp.Value} {values : List Resp.Value} : p.pendingCache server = [] →
      CacheFault p server ending (value :: values)
        (.cacheProtest server :: cacheLossMoves p server)

section Fault

variable {w : World} {p : Proxy} {server : Nat} {ending : Ending}

theorem storeMoves_cases (w : World) (server : Nat) (ending : Ending)
    (frames : List Store.Frame) (p : Proxy) : ∃ good left after, frames = good ++ left ∧
      storeMoves w server ending frames p = good.map (.storeAnswer server) ++ after ∧
      ((∃ rest, after = [.storeHold server rest]) ∨
        ∃ why, Fault w (play w p (good.map (.storeAnswer server))) server ending left why
          after) := by
  induction frames generalizing p with
  | nil =>
      cases ending with
      | waiting rest => exact ⟨[], [], _, rfl, rfl, Or.inl ⟨rest, rfl⟩⟩
      | refused why => exact ⟨[], [], _, rfl, rfl, Or.inr ⟨why, .unreadable rfl⟩⟩
  | cons frame frames ih =>
      unfold storeMoves
      cases pending : (p.storeLink server).pending with
      | nil => exact ⟨[], _, _, rfl, rfl, Or.inr ⟨_, .unrequested pending⟩⟩
      | cons entry rest =>
          obtain ⟨id, kind⟩ := entry
          dsimp only
          cases decoded : Store.Response.decode frame.code frame.payload kind with
          | error why =>
              dsimp only
              rw [if_pos (Store.Response.fatal_of_decode decoded)]
              exact ⟨[], _, _, rfl, rfl, Or.inr ⟨why, .undecodable pending decoded⟩⟩
          | ok response =>
              obtain ⟨good, left, after, same, course, ends⟩ :=
                ih ((Move.storeAnswer server frame).apply w p)
              refine ⟨frame :: good, left, after, by rw [same, List.cons_append], ?_, ends⟩
              exact congrArg (_ :: ·) course

theorem cacheMoves_cases (w : World) (server : Nat) (ending : Ending)
    (values : List Resp.Value) (p : Proxy) : ∃ good left after, values = good ++ left ∧
      cacheMoves w server ending values p = good.map (.cacheAnswer server) ++ after ∧
      ((∃ rest, after = [.cacheHold server rest]) ∨
        CacheFault (play w p (good.map (.cacheAnswer server))) server ending left after) := by
  induction values generalizing p with
  | nil =>
      cases ending with
      | waiting rest => exact ⟨[], [], _, rfl, rfl, Or.inl ⟨rest, rfl⟩⟩
      | refused why => exact ⟨[], [], _, rfl, rfl, Or.inr (.unreadable rfl)⟩
  | cons value values ih =>
      unfold cacheMoves
      cases pending : (p.cacheLink server).pending with
      | nil => exact ⟨[], _, _, rfl, rfl, Or.inr (.unrequested pending)⟩
      | cons entry rest =>
          obtain ⟨good, left, after, same, course, ends⟩ :=
            ih ((Move.cacheAnswer server value).apply w p)
          refine ⟨value :: good, left, after, by rw [same, List.cons_append], ?_, ends⟩
          exact congrArg (_ :: ·) course

end Fault

end ReadThrough.Proxy
