import ReadThrough.Proofs.Deeds.StoreSide
import ReadThrough.Proofs.Groups
import ReadThrough.Proofs.Replies

namespace ReadThrough.Proxy

variable {fan : Nat → Prop} {fair : Prop} {hand : Hand} (w : World) (p : Proxy)

theorem handles_sendNew {duty : Duty} (operation : Operation) {request : Store.Request}
    (owes : operation.duty = duty) (kind : operation.stage.awaits = some request.kind)
    (deferred : ∀ {address value later},
      operation.stage = .awaitingVclock address value later → later.kind = .put)
    (route : Bytes) :
    Handles fan fair p ((none, duty) :: hand) (p.sendNew w operation request route) hand := by
  subst owes
  exact Handles.number.trans (handles_send w _ kind deferred route)

theorem parts_eq_map {α : Type} (client group : Nat) (yield : Yield) (xs : List α) :
    parts client group xs.length yield =
      xs.zipIdx.map fun x => (none, .part client group x.2 yield) := by
  have h : xs.zipIdx.map Prod.snd = List.range xs.length := by
    rw [List.zipIdx_map_snd, List.range_eq_range']
  rw [parts, ← h, List.map_map]
  rfl

theorem handles_invalidateAll (addresses : List Address) :
    Handles fan fair p hand (addresses.foldl (fun p address => p.invalidate w address) p) hand := by
  induction addresses generalizing p with
  | nil => exact .refl
  | cons address rest ih => exact (handles_invalidate w p address).trans (ih _)

def Incomplete (group : Nat) (p : Proxy) : Prop :=
  group < p.groups.next ∧ ∀ g, p.groups.table.get? group = some g → g.isComplete = false

theorem incomplete_of_deed {group : Nat} {a b : Proxy × Hand} (h : Deed fan a b)
    (ha : Incomplete group a.1) : Incomplete group b.1 := by
  cases h with
  | quiet same => simpa only [Incomplete, same.groups] using ha
  | number => exact ha
  | sideEffect server command => exact ha
  | lookUp server stage sound => exact ha
  | request server sent sound => exact ha
  | reply value => simpa only [Incomplete, groups_reply] using ha
  | @bring p hand number client id index yield part brings accepts =>
      refine ⟨by rw [Fragment.Groups.next_contribute]; exact ha.1, ?_⟩
      intro g hg
      rcases Fragment.Groups.get?_contribute accepts hg with ⟨-, -, -, -, incomplete⟩ | ⟨-, hg⟩
      · exact incomplete
      · exact ha.2 g hg
  | refuse brings accepts => exact ha
  | @gather p hand client total gathered context yield fits begins =>
      refine ⟨Nat.lt_succ_of_lt ha.1, ?_⟩
      intro g hg
      rw [openGroup, Fragment.Groups.openGroup] at hg
      exact ha.2 g (by rwa [Table.get?_insert_of_ne _ _ (Nat.ne_of_lt ha.1)] at hg)
  | gatherNothing =>
      refine ⟨Nat.lt_succ_of_lt ha.1, ?_⟩
      intro g hg
      rw [Table.get?_erase_of_ne _ (Nat.ne_of_lt ha.1)] at hg
      exact ha.2 g hg

theorem incomplete_of_deeds {group : Nat} {a b : Proxy × Hand}
    (h : Relation.ReflTransGen (Deed fan) a b) (ha : Incomplete group a.1) :
    Incomplete group b.1 := by
  induction h with
  | refl => exact ha
  | tail _ deed ih => exact incomplete_of_deed deed ih

theorem incomplete_openGroup {client total : Nat} (h : 0 < total)
    (gathered : Fragment.Gathered) (context : GroupContext) :
    Incomplete p.groups.next (p.openGroup client total gathered context).2 := by
  refine ⟨Nat.lt_succ_self _, ?_⟩
  intro g hg
  simp only [openGroup, Fragment.Groups.openGroup, Table.get?_insert_self, Option.some.injEq] at hg
  subst hg
  simpa [Fragment.Group.isComplete] using Nat.ne_of_gt h

theorem pollGroup_of_incomplete {group : Nat} (h : Incomplete group p) :
    p.pollGroup w group = p := by
  rw [pollGroup, Fragment.Groups.poll_of_incomplete h.2]

theorem handles_performDelete (positive : ∀ n, 0 < n → fan n) (client slot : Nat)
    (cacheOnly : List Address) {stored : List (Address × Store.Request)}
    (kinds : ∀ part ∈ stored, part.2.kind = .delete) :
    Handles fan fair p ((none, .reply client slot) :: hand)
      (p.performDelete w client slot cacheOnly stored) hand := by
  unfold performDelete
  refine (handles_invalidateAll w p cacheOnly).trans ?_
  dsimp only
  generalize cacheOnly.foldl (fun p address => p.invalidate w address) p = q
  generalize Int64.ofNat cacheOnly.length = n
  -- Without stored keys the group is complete from the beginning, and the poll answers.
  by_cases empty : stored = []
  · subst empty
    have polled := Fragment.Groups.poll_openGroup_zero q.groups client (.count n)
      (GroupContext.del slot)
    refine (Handles.of_deed .gatherNothing rfl).trans ?_
    simp only [List.length_nil, List.zipIdx_nil, List.foldl_nil, openGroup, pollGroup]
    rw [show (q.groups.openGroup client 0 (.count n) (GroupContext.del slot)).1 = q.groups.next
      from rfl, polled]
    exact handles_completeGroup w _
      { client, total := 0, gathered := .count n, context := .del slot }
  · have nonempty : 0 < stored.length := List.length_pos_iff.mpr empty
    have begins : Yield.deletion.Begins stored.length (.count n) := rfl
    have opened : Handles fan fair q ((none, .reply client (GroupContext.del slot).slot) :: hand)
        (q.openGroup client stored.length (.count n) (.del slot)).2
        (parts client q.groups.next stored.length .deletion ++ hand) :=
      .of_deed (.gather (positive _ nonempty) begins) rfl
    refine opened.trans ?_
    have sent : Handles fan fair (q.openGroup client stored.length (.count n) (.del slot)).2
        (parts client q.groups.next stored.length .deletion ++ hand)
        (stored.zipIdx.foldl
          (fun p part =>
            let operation : Operation :=
              { client, target := .fragment q.groups.next part.2,
                stage := .storeWrite (.delete part.1.1) }
            p.sendNew w operation part.1.2 part.1.1.raw)
          (q.openGroup client stored.length (.count n) (.del slot)).2) hand := by
      rw [parts_eq_map]
      refine Handles.foldl ?_
      intro part hp r hand
      let operation : Operation :=
        { client, target := .fragment q.groups.next part.2,
          stage := .storeWrite (.delete part.1.1) }
      have kind : operation.stage.awaits = some part.1.2.kind :=
        congrArg some (kinds part.1 (List.fst_mem_of_mem_zipIdx hp)).symm
      exact handles_sendNew w r operation rfl kind (by simp [operation]) _
    -- Parts that fail at once complete the group themselves: the poll finds it incomplete or gone.
    have open' := incomplete_of_deeds sent.deeds (incomplete_openGroup q nonempty _ _)
    rw [show (q.openGroup client stored.length (.count n) (.del slot)).1 = q.groups.next from rfl,
      pollGroup_of_incomplete w _ open']
    exact sent

theorem handles_combine (client slot : Nat) (op : SetOperator) (dest : Option Address)
    (sources : List Address) (fits : fan sources.length) :
    Handles fan fair p ((none, .reply client slot) :: hand)
      (p.combine w client slot op dest sources) hand := by
  have begins : Yield.members.Begins sources.length (.emptySets sources.length) := ⟨rfl, rfl⟩
  have opened : Handles fan fair p
      ((none, .reply client (GroupContext.algebra slot op dest).slot) :: hand)
      (p.openGroup client sources.length (.emptySets sources.length) (.algebra slot op dest)).2
      (parts client p.groups.next sources.length .members ++ hand) :=
    .of_deed (.gather fits begins) rfl
  refine opened.trans ?_
  rw [parts_eq_map]
  refine Handles.foldl ?_
  intro source _ r hand
  exact handles_startRead w r client _ _ _ rfl

def Plan.Fits (fan : Nat → Prop) : Plan → Prop
  | .read _ => True
  | .write change request => change.kind = request.kind
  | .readThenPut _ _ deferred fetch => deferred.kind = .put ∧ fetch.kind = .get
  | .delete _ stored => ∀ part ∈ stored, part.2.kind = .delete
  | .combine _ _ sources => fan sources.length

theorem handles_perform (positive : ∀ n, 0 < n → fan n) (client slot : Nat) {plan : Plan}
    (fits : plan.Fits fan) :
    Handles fan fair p ((none, .reply client slot) :: hand) (p.perform w client slot plan) hand := by
  cases plan with
  | read read => exact handles_startRead w p client (.client slot) read _ rfl
  | write write request =>
      let operation : Operation :=
        { client, target := .client slot, stage := .storeWrite write }
      have kind : operation.stage.awaits = some request.kind := congrArg some fits
      exact handles_sendNew w p operation rfl kind (by simp [operation]) _
  | readThenPut address value deferred fetch =>
      let operation : Operation :=
        { client, target := .client slot, stage := .awaitingVclock address value deferred }
      have kind : operation.stage.awaits = some fetch.kind := congrArg some fits.2.symm
      refine handles_sendNew w p operation rfl kind ?_ _
      intro _ _ later hl
      cases hl
      exact fits.1
  | delete cacheOnly stored => exact handles_performDelete w p positive client slot cacheOnly fits
  | combine op dest sources => exact handles_combine w p client slot op dest sources fits

section Plan

variable {p} {plan : Plan}

theorem fits_of_planPut {address : Address} {value : Bytes}
    (h : p.planPut address value = .ok plan) : plan.Fits fan := by
  unfold planPut at h
  split at h
  · obtain ⟨request, hr, rfl⟩ := map_eq_ok h
    exact (Store.Request.kind_of_put hr).symm
  · obtain ⟨deferred, hd, h⟩ := bind_eq_ok h
    obtain ⟨fetch, hf, h⟩ := bind_eq_ok h
    cases h
    exact ⟨Store.Request.kind_of_put hd, Store.Request.kind_of_get hf⟩

theorem fits_of_planSetUpdate {key : Bytes} {action : Store.SetAction} {members : List Bytes}
    (h : p.planSetUpdate key action members = .ok plan) : plan.Fits fan := by
  obtain ⟨address, -, h⟩ := bind_eq_ok h
  obtain ⟨request, hr, h⟩ := bind_eq_ok h
  cases h
  exact (Store.Request.kind_of_setUpdate hr).symm

theorem fits_of_planDelete {keys : List Bytes} (h : p.planDelete keys = .ok plan) :
    plan.Fits fan := by
  obtain ⟨deletion, -, h⟩ := bind_eq_ok h
  obtain ⟨stored, hs, h⟩ := bind_eq_ok h
  cases h
  intro part hp
  obtain ⟨address, -, h⟩ := exists_of_mem_mapM hs hp
  obtain ⟨request, hr, rfl⟩ := map_eq_ok h
  exact Store.Request.kind_of_delete hr

theorem fits_of_plan {command : Command} (h : p.plan command = .ok plan)
    (keys : ∀ op dest keys, command = .algebra op dest keys → fan keys.length) :
    plan.Fits fan := by
  cases command with
  | get key | smembers key | sismember key member | scard key =>
      obtain ⟨address, -, rfl⟩ := map_eq_ok h
      trivial
  | set key value =>
      obtain ⟨address, -, h⟩ := bind_eq_ok h
      exact fits_of_planPut h
  | del keys => exact fits_of_planDelete h
  | sadd key members | srem key members => exact fits_of_planSetUpdate h
  | algebra op dest keys =>
      obtain ⟨sources, hs, h⟩ := bind_eq_ok h
      obtain ⟨dest, -, h⟩ := bind_eq_ok h
      cases h
      change fan sources.length
      rw [length_of_mapM hs]
      exact keys op _ _ rfl
  | incr key amount =>
      obtain ⟨address, -, h⟩ := bind_eq_ok h
      obtain ⟨request, hr, h⟩ := bind_eq_ok h
      cases h
      exact (Store.Request.kind_of_counterUpdate hr).symm

end Plan

end ReadThrough.Proxy
