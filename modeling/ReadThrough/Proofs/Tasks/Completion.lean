import ReadThrough.Proofs.Task

namespace ReadThrough.Proxy

variable (w : World) (p : Proxy)

theorem pick_eq {tier : Pool.Tier} {key : Bytes} {server : Option Nat} {q : Proxy}
    (h : p.pick w tier key = (server, q)) :
    (w.pool p.looks).pick tier key = server ∧ q = (p.look w).2 := by
  cases h
  exact ⟨rfl, rfl⟩

theorem leads_sideEffect (route : Bytes) (command : Cache.Command) :
    Leads w p [.copy route command] (p.sideEffect w route command) := by
  unfold sideEffect
  split
  · next q h =>
      obtain ⟨none, rfl⟩ := pick_eq w p h
      exact .done (.drop none)
  · next server q h =>
      obtain ⟨picked, rfl⟩ := pick_eq w p h
      exact .done (.copy picked)

theorem leads_sideEffects (route : Bytes) (commands : List Cache.Command) :
    Leads w p (copies route commands) (p.sideEffects w route commands) := by
  induction commands generalizing p with
  | nil => exact .nil
  | cons command rest ih => exact (leads_sideEffect w p route command).cons (ih _)

theorem leads_reply (client slot : Nat) (value : Reply) :
    Leads w p [.reply client slot value] (p.reply client slot value) :=
  .done .reply

theorem leads_submit {id : Nat} {operation : Operation} {request : Store.Request}
    {unsent : Failure → Proxy → Proxy}
    (ends : ∀ why q, Leads w q [operation.failing why] (unsent why q)) :
    Leads w p [.send id operation request]
      (match p.submit w id operation request operation.stage.address.raw with
        | (.ok (), q) => q
        | (.error why, q) => unsent why q) := by
  unfold submit
  cases fits : request.checkSize p.settings.maxFrameSize with
  | error why => exact .does (.oversize fits) (ends why p)
  | ok _ =>
      dsimp only [pick, look]
      cases picked : (w.pool p.looks).pick .store operation.stage.address.raw with
      | none => exact .does (.unreached fits picked) (ends _ _)
      | some server => exact .done (.send fits picked)

theorem leads_startStore (client slot : Nat) (dest : Address) (members : List Bytes)
    {request : Store.Request} (h : Store.Request.setFetch p.settings dest.key = .ok request) :
    Leads w p
      [.launch { client, target := .client slot, stage := .storeFetch dest members } request]
      (p.startStore w client slot dest members) := by
  unfold startStore
  rw [h]
  exact .does .launch (leads_submit w _ fun why q => leads_reply w q client slot _)

theorem leads_completeGroup (group : Fragment.Group GroupContext) :
    Leads w p [completion p.settings group] (completeGroup w p group) := by
  unfold completeGroup completion
  cases group.context with
  | del slot => exact leads_reply w p _ _ _
  | algebra slot op dest =>
      by_cases failed : 0 < group.failures
      · simp only [failed, if_true]
        exact leads_reply w p _ _ _
      · simp only [failed, if_false]
        cases dest with
        | none => exact leads_reply w p _ _ _
        | some dest =>
            cases hr : Store.Request.setFetch p.settings dest.key with
            | error why =>
                simp only [startStore, hr]
                exact leads_reply w p _ _ _
            | ok request =>
                simp only [hr]
                exact leads_startStore w p _ _ _ _ hr

theorem leads_closing (done : Option (Fragment.Group GroupContext))
    (groups : Fragment.Groups GroupContext) : Leads w { p with groups } (closing p.settings done)
      (match done with
        | none => { p with groups }
        | some group => completeGroup w { p with groups } group) := by
  cases done with
  | none => exact .nil
  | some group => exact leads_completeGroup w { p with groups } group

theorem leads_contribute (group : Nat) (part : Fragment.Part) :
    Leads w p [.part group part] (p.contribute w group part) := by
  unfold contribute
  split
  · next accepts =>
      refine .does (.bring accepts) ?_
      have closes := leads_closing w p (p.groups.contribute group part).1
        (p.groups.contribute group part).2
      split
      · next groups hg => simpa only [hg] using closes
      · next done groups hg => simpa only [hg] using closes
  · next refuses =>
      exact .does (.refuse (by simpa using refuses)) (.still (Still.breach p _) .nil)

theorem leads_conclude_fail (operation : Operation) (value : Reply) :
    Leads w p [operation.conclude value] (p.fail w operation value) := by
  unfold Operation.conclude fail
  cases operation.target with
  | client slot => exact leads_reply w p _ _ _
  | fragment group index => exact leads_contribute w p _ _

theorem leads_failing (operation : Operation) (why : Failure) :
    Leads w p [operation.failing why] (p.failWith w operation why) :=
  leads_conclude_fail w p operation _

theorem leads_conclude (operation : Operation) (value : Reply) :
    Leads w p [operation.conclude value] (p.finish w operation value) := by
  unfold Operation.conclude finish
  cases operation.target with
  | client slot => exact leads_reply w p _ _ _
  | fragment group index => exact .still (Still.breach p _) (leads_contribute w _ _ _)

theorem leads_send (id : Nat) (operation : Operation) (request : Store.Request) :
    Leads w p [.send id operation request]
      (p.send w id operation request operation.stage.address.raw) :=
  leads_submit w p fun why q => leads_failing w q operation why

theorem leads_replaced (operation : Operation) (dest : Address) (members : List Bytes) :
    Leads w p (operation.replaced p dest members) (p.finishStore w operation dest members) :=
  (leads_sideEffects w p _ _).append (leads_conclude w _ operation _)

end ReadThrough.Proxy
