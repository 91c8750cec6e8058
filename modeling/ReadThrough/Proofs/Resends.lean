import ReadThrough.Proofs.Parts
import ReadThrough.Proofs.Plans

namespace ReadThrough

def Command.readKey? : Command → Option Bytes
  | .get key | .smembers key | .sismember key _ | .scard key => some key
  | _ => none

namespace Proxy

/-- What was sent of a read: the same request to the server that owns the key, and from then on to
those that were alive when the first answer failed to come, in their order. -/
structure Tries (w : World) (past : History) (settings : Settings) (id : Nat) (key : Bytes)
    (sent : List Sending) : Prop where
  same : ∃ request, ∀ sending ∈ sent, sending.request = request
  servers : ∃ first rest, sent = first :: rest ∧ Picked w past first.time key first.server ∧
    (rest = [] ∨ ∃ heard look, Heard past first.time id heard ∧ Looked w past heard look ∧
      rest.map (·.server) <+: ((w.pool look).live .store).filter (· ≠ first.server))
  distinct : (sent.map (·.server)).Nodup
  budget : sent.length ≤ max settings.maxResend 1

def Spent (w : World) (past : History) (settings : Settings) (id : Nat) (command : Command)
    (sent : List Sending) : Prop :=
  match command.readKey? with
  | some key => Tries w past settings id key sent
  | none => (sent.map (·.request.kind)).Nodup

section Spent

variable {w : World} {past : History} {settings : Settings} {start id : Nat} {key : Bytes}
  {sent : List Sending}

theorem tries_of_tried (distinct : ∀ n, ((w.pool n).live .store).Nodup) {request : Store.Request}
    {first : Sending} {rest : List Sending}
    (h : Tried w past settings id key request first rest) :
    Tries w past settings id key (first :: rest) := by
  rcases h.resent with rfl | ⟨left, heard, look, first', looked, plan⟩
  · refine ⟨⟨request, h.same⟩, ⟨first, [], rfl, h.picked, Or.inl rfl⟩, List.nodup_singleton _, ?_⟩
    exact Nat.le_max_right _ _
  · have front : rest.map (·.server) <+: Pool.Resend.plan ((w.pool look).live .store) first.server
        settings.effectiveMaxResend := ⟨left, plan⟩
    refine ⟨⟨request, h.same⟩, ⟨first, rest, rfl, h.picked, Or.inr ⟨heard, look, first', looked, ?_⟩⟩,
      ?_, ?_⟩
    · exact front.trans (List.take_prefix _ _)
    · refine List.nodup_cons.mpr ⟨?_, ?_⟩
      · intro again
        exact Pool.Resend.primary_not_mem_plan _ _ _ (front.subset again)
      · exact front.sublist.nodup (Pool.Resend.nodup_plan (distinct look) _ _)
    · have few := front.length_le
      have bound := Pool.Resend.length_plan_le ((w.pool look).live .store) first.server
        settings.effectiveMaxResend
      have least : 1 ≤ settings.effectiveMaxResend := Nat.le_max_right _ _
      rw [List.length_map] at few
      rw [List.length_cons]
      exact Nat.add_le_of_le_sub least (Nat.le_trans few bound)

theorem spent_of_trail (distinct : ∀ n, ((w.pool n).live .store).Nodup) {q : Proxy}
    {command : Command} {plan : Plan} {place : Option Nat} {stage : Stage}
    {request : Option Store.Request} (planned : q.plan command = .ok plan)
    (trail : Trail w past settings start id plan place stage request sent) (some : sent ≠ []) :
    Spent w past settings id command sent := by
  have read : ∀ {read : Read},
      Trail w past settings start id (.read read) place stage request sent →
      Tries w past settings id read.address.raw sent := by
    intro read trail
    cases trail with
    | lookUp => exact absurd rfl some
    | read _ tried => exact tries_of_tried distinct tried
  have raw : ∀ {key : Bytes} {address : Address}, Address.parse key = .ok address →
      address.raw = key := by
    intro key address parsed
    obtain ⟨_, -, rfl⟩ := map_eq_ok parsed
    rfl
  unfold Spent
  cases plans_of_plan planned with
  | get parsed | smembers parsed | sismember parsed | scard parsed => exact raw parsed ▸ read trail
  | put | sadd | srem | incr =>
      cases trail
      exact List.nodup_singleton _
  | readThenPut parsed remembered puts gets =>
      cases trail with
      | fetch => exact List.nodup_singleton _
      | @put _ _ _ _ _ _ _ _ _ vclock =>
          have kind : (withVclock _ vclock).kind = .put :=
            kind_withVclock (Store.Request.kind_of_put puts)
          simp [kind, Store.Request.kind_of_get gets, Command.readKey?]
  | del =>
      cases trail
      exact List.nodup_singleton _
  | algebra =>
      cases trail with
      | source => exact absurd rfl some
      | sourceRead | dest => exact List.nodup_singleton _
      | replace _ fetches _ replaces =>
          simp [Store.Request.kind_of_setFetch fetches, Store.Request.kind_of_setReplace replaces,
            Command.readKey?]

end Spent

structure Thrifty (w : World) (p : Proxy) (events : List Event) : Prop
    extends Unrolled w p events where
  spent : ∀ ms, ms <+: course w p events → ∀ id, sendings w (history w p ms) id ≠ [] →
    ∃ start command root, Planned w (history w p ms) start command root ∧
      Stems w (history w p ms) start id ∧
      Spent w (history w p ms) p.settings id command (sendings w (history w p ms) id)
  parts : ∀ ms, ms <+: course w p events → ∀ start command root,
    Planned w (history w p ms) start command root → ∃ part : Nat → Option Nat,
      Set.InjOn part (asking w (history w p ms) start) ∧
      ∀ id ∈ asking w (history w p ms) start, ∃ stage request,
        Trail w (history w p ms) p.settings start id root.plan (part id) stage request
          (sendings w (history w p ms) id)

theorem thrifty_run (w : World) (settings : Settings) (policy : BucketPolicy)
    (events : List Event) (distinct : ∀ n, ((w.pool n).live .store).Nodup) :
    Thrifty w (start settings policy) events where
  toUnrolled := unrolled_of_tidy w (Tidy.start settings policy) events
  spent := by
    intro ms _ id sent
    have trailed := (Trailed.start w settings policy).play ms
    obtain ⟨start, command, root, planned, stems, place, stage, request, trail⟩ :=
      trailed.known sent
    have at' := planned
    obtain ⟨q, -, of⟩ := at'
    rw [settings_play] at trail
    exact ⟨start, command, root, planned, stems, spent_of_trail distinct of.plan trail sent⟩
  parts := by
    intro ms _ start command root planned
    exact parts_of_root (Trailed.start w settings policy) (Sessions.start w settings policy)
      (Balanced.start settings policy) planned

theorem thrifty_run_silence :
    let w : World :=
      { pool := fun _ =>
          { pick := fun tier _ => if tier = .store then some 0 else none, live := fun _ => [0, 1] }
        draw := fun _ => 0 }
    let events : List Event :=
      [.command 7 (.get (ascii "b:k")), .storeTimeout 0, .storeTimeout 1]
    let p := start { maxResend := 2 } {}
    (sendings w (history w p (course w p events)) 1).map (·.server) = [0, 1] ∧
      Thrifty w p events := by
  intro w events p
  have distinct : ∀ n, ((w.pool n).live .store).Nodup := fun _ => (by decide : [0, 1].Nodup)
  exact ⟨by decide +kernel, thrifty_run w _ _ _ distinct⟩

end Proxy

end ReadThrough
