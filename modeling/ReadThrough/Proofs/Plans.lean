import Mathlib.Data.List.Basic
import ReadThrough.Proofs.Outcomes
import ReadThrough.Proxy.ClientSide

namespace ReadThrough

namespace Proxy

inductive Plan where
  | read (read : Read)
  | write (write : Write) (request : Store.Request)
  | readThenPut (address : Address) (value : Bytes) (deferred fetch : Store.Request)
  | delete (cacheOnly : List Address) (stored : List (Address × Store.Request))
  | combine (op : SetOperator) (dest : Option Address) (sources : List Address)
  deriving DecidableEq, Repr

def planPut (p : Proxy) (address : Address) (value : Bytes) : Except Failure Plan :=
  match p.rememberedVclock address.key.join with
  | some vclock =>
      (Store.Request.put p.settings address.key value (some vclock)).map
        (.write (.put address value))
  | none => do
      let deferred ← Store.Request.put p.settings address.key value none
      let fetch ← Store.Request.get p.settings address.key
      return .readThenPut address value deferred fetch

def planSetUpdate (p : Proxy) (key : Bytes) (action : Store.SetAction) (members : List Bytes) :
    Except Failure Plan := do
  let address ← Address.parse key
  let request ← Store.Request.setUpdate p.settings address.key action members
  return .write (.setUpdate address members.length) request

def planDelete (p : Proxy) (keys : List Bytes) : Except Failure Plan := do
  let deletion ← Store.Deletion.ofKeys keys
  let stored ← deletion.stored.mapM fun address =>
    (Store.Request.delete p.settings address.key).map fun request => (address, request)
  return .delete deletion.cacheOnly stored

def plan (p : Proxy) : Command → Except Failure Plan
  | .get key => (Address.parse key).map fun address => .read (.value address)
  | .set key value => (Address.parse key).bind fun address => p.planPut address value
  | .del keys => p.planDelete keys
  | .sadd key members => p.planSetUpdate key .add members
  | .srem key members => p.planSetUpdate key .remove members
  | .smembers key =>
      (Address.parse key).map fun address => .read (.set address (.query .members))
  | .sismember key member =>
      (Address.parse key).map fun address => .read (.set address (.query (.contains member)))
  | .scard key => (Address.parse key).map fun address => .read (.set address (.query .card))
  | .algebra op dest keys => do
      let sources ← keys.mapM Address.parse
      let dest ← planDest dest
      return .combine op dest sources
  | .incr key amount => do
      let address ← Address.parse key
      let request ← Store.Request.counterUpdate p.settings address.key amount
      return .write (.counter address) request

def touchVclock (p : Proxy) : Command → Proxy
  | .set key _ =>
      match Key.split key with
      | .ok key => { p with vclocks := p.vclocks.touch key.join }
      | .error _ => p
  | _ => p

def spend (p : Proxy) : Command → Proxy
  | .set key _ =>
      match Key.split key with
      | .ok _ => p.newOperation.2
      | .error _ => p
  | _ => p

def performDelete (w : World) (p : Proxy) (client slot : Nat) (cacheOnly : List Address)
    (stored : List (Address × Store.Request)) : Proxy :=
  let p := cacheOnly.foldl (fun p address => p.invalidate w address) p
  let (group, p) :=
    p.openGroup client stored.length (.count (Int64.ofNat cacheOnly.length)) (.del slot)
  let p := stored.zipIdx.foldl
    (fun p part =>
      let operation : Operation :=
        { client, target := .fragment group part.2, stage := .storeWrite (.delete part.1.1) }
      p.sendNew w operation part.1.2 part.1.1.raw) p
  p.pollGroup w group

def perform (w : World) (p : Proxy) (client slot : Nat) : Plan → Proxy
  | .read read => p.startRead w client (.client slot) read
  | .write write request =>
      p.sendNew w { client, target := .client slot, stage := .storeWrite write } request
        write.address.raw
  | .readThenPut address value deferred fetch =>
      p.sendNew w
        { client, target := .client slot, stage := .awaitingVclock address value deferred } fetch
        address.raw
  | .delete cacheOnly stored => p.performDelete w client slot cacheOnly stored
  | .combine op dest sources => p.combine w client slot op dest sources

section Handlers

theorem run_ofExcept {α : Type} (x : Except Failure α) (p : Proxy) :
    EStateM.run (ofExcept x : Handler α) p = match x with
      | .ok a => .ok a p
      | .error why => .error why p := by
  cases x <;> rfl

theorem delete_of_hasBucket (settings : Settings) {address : Address}
    (bucket : address.hasBucket = true) :
    Store.Request.delete settings address.key = .ok ⟨address.key, settings.quorum, .delete⟩ := by
  rw [Address.hasBucket] at bucket
  simp only [Store.Request.delete, Store.Request.compose, Key.requireBucket, bucket, if_true]
  rfl

theorem mapM_delete (settings : Settings) (addresses : List Address)
    (buckets : ∀ a ∈ addresses, a.hasBucket = true) :
    addresses.mapM (fun a =>
        (Store.Request.delete settings a.key).map fun request => (a, request)) =
      .ok (addresses.map fun a => (a, ⟨a.key, settings.quorum, .delete⟩)) := by
  induction addresses with
  | nil => rfl
  | cons a addresses ih =>
      obtain ⟨bucket, buckets⟩ := List.forall_mem_cons.mp buckets
      rw [List.mapM_cons, delete_of_hasBucket settings bucket, ih buckets]
      rfl

theorem hasBucket_of_ofKeys {keys : List Bytes} {deletion : Store.Deletion}
    (h : Store.Deletion.ofKeys keys = .ok deletion) :
    ∀ a ∈ deletion.stored, a.hasBucket = true := by
  obtain ⟨addresses, -, rfl⟩ := map_eq_ok h
  exact fun a hm => (List.mem_filter.mp hm).2

variable (w : World) (p : Proxy) (client slot : Nat)

theorem delete_eq {deletion : Store.Deletion}
    (buckets : ∀ a ∈ deletion.stored, a.hasBucket = true) :
    p.delete w client slot deletion =
      p.performDelete w client slot deletion.cacheOnly
        (deletion.stored.map fun a => (a, ⟨a.key, p.settings.quorum, .delete⟩)) := by
  unfold delete performDelete
  dsimp only
  rw [List.length_map, List.zipIdx_map, List.foldl_map]
  refine congrArg (pollGroup w · _) (List.foldl_ext _ _ _ ?_)
  intro q part hm
  have bucket := buckets part.1 (List.fst_mem_of_mem_zipIdx hm)
  simp only [sendDeletion, delete_of_hasBucket _ bucket, Prod.map_fst, Prod.map_snd, id_eq]

def Plan.outcome (command : Command) :
    Except Failure Plan → EStateM.Result Failure Proxy Unit
  | .ok plan => .ok () ((p.touchVclock command).perform w client slot plan)
  | .error why => .error why ((p.touchVclock command).spend command)

theorem run_startSet (key value : Bytes) : (startSet w client slot key value).run p =
    Plan.outcome w p client slot (.set key value) (p.plan (.set key value)) := by
  cases split : Key.split key with
  | error why =>
      simp only [startSet, plan, Plan.outcome, touchVclock, spend, Address.parse, split,
        EStateM.run_bind, run_ofExcept, Except.map, Except.bind]
  | ok address =>
      simp only [startSet, plan, planPut, Plan.outcome, touchVclock, spend, Address.parse, split,
        EStateM.run_bind, run_ofExcept, EStateM.run_modifyGet, EStateM.run_get, Except.map,
        Except.bind, lookUpVclock, newOperation]
      cases p.rememberedVclock address.join with
      | some vclock =>
          simp only [EStateM.run_bind, run_ofExcept]
          cases Store.Request.put p.settings address value (some vclock) <;> rfl
      | none =>
          simp only [EStateM.run_bind, run_ofExcept]
          cases Store.Request.put p.settings address value none with
          | error why => rfl
          | ok deferred => cases Store.Request.get p.settings address <;> rfl

theorem run_startDelete (keys : List Bytes) : (startDelete w client slot keys).run p =
    Plan.outcome w p client slot (.del keys) (p.plan (.del keys)) := by
  simp only [startDelete, plan, planDelete, EStateM.run_bind, run_ofExcept]
  cases read : Store.Deletion.ofKeys keys with
  | error why => rfl
  | ok deletion =>
      have buckets := hasBucket_of_ofKeys read
      simp only [EStateM.run_modify, delete_eq w p client slot buckets]
      exact congrArg (fun stored => Plan.outcome w p client slot (.del keys)
        (stored.bind fun stored => .ok (.delete deletion.cacheOnly stored)))
        (mapM_delete p.settings _ buckets).symm

theorem run_startCommand (command : Command) : (startCommand w client slot command).run p =
    Plan.outcome w p client slot command (p.plan command) := by
  cases command with
  | set key value => exact run_startSet w p client slot key value
  | del keys => exact run_startDelete w p client slot keys
  | get key =>
      simp only [startCommand, plan, EStateM.run_bind, run_ofExcept]
      cases Address.parse key <;> rfl
  | smembers key | sismember key member | scard key =>
      simp only [startCommand, startSetQuery, plan, EStateM.run_bind, run_ofExcept]
      cases Address.parse key <;> rfl
  | sadd key members | srem key members =>
      simp only [startCommand, startSetUpdate, plan, planSetUpdate, EStateM.run_bind, run_ofExcept,
        EStateM.run_get]
      cases Address.parse key with
      | error why => rfl
      | ok address =>
          dsimp only [bind, Except.bind]
          cases Store.Request.setUpdate p.settings address.key _ members <;> rfl
  | incr key amount =>
      simp only [startCommand, plan, EStateM.run_bind, run_ofExcept, EStateM.run_get]
      cases Address.parse key with
      | error why => rfl
      | ok address =>
          dsimp only [bind, Except.bind]
          cases Store.Request.counterUpdate p.settings address.key amount <;> rfl
  | algebra op dest keys =>
      simp only [startCommand, startCombination, plan, EStateM.run_bind, run_ofExcept]
      cases keys.mapM Address.parse with
      | error why => rfl
      | ok sources =>
          dsimp only [bind, Except.bind]
          cases planDest dest <;> rfl

theorem clientCommand_eq (command : Command) :
    p.clientCommand w client command =
      let q := ({ p with policy := p.policy.refresh }.reserve client).2
      match q.plan command with
      | .ok plan => (q.touchVclock command).perform w client (p.client client).replies.next plan
      | .error why =>
          ((q.touchVclock command).spend command).reply client (p.client client).replies.next
            (Reply.failure why) := by
  unfold clientCommand
  simp only [run_startCommand]
  cases plan ({ p with policy := p.policy.refresh }.reserve client).2 command <;> rfl

end Handlers

inductive Plans (p : Proxy) : Command → Plan → Prop where
  | get {key : Bytes} {address : Address} : Address.parse key = .ok address →
      Plans p (.get key) (.read (.value address))
  | smembers {key : Bytes} {address : Address} : Address.parse key = .ok address →
      Plans p (.smembers key) (.read (.set address (.query .members)))
  | sismember {key member : Bytes} {address : Address} : Address.parse key = .ok address →
      Plans p (.sismember key member) (.read (.set address (.query (.contains member))))
  | scard {key : Bytes} {address : Address} : Address.parse key = .ok address →
      Plans p (.scard key) (.read (.set address (.query .card)))
  | put {key value vclock : Bytes} {address : Address} {request : Store.Request} :
      Address.parse key = .ok address →
      p.rememberedVclock address.key.join = some vclock →
      Store.Request.put p.settings address.key value (some vclock) = .ok request →
      Plans p (.set key value) (.write (.put address value) request)
  | readThenPut {key value : Bytes} {address : Address} {deferred fetch : Store.Request} :
      Address.parse key = .ok address → p.rememberedVclock address.key.join = none →
      Store.Request.put p.settings address.key value none = .ok deferred →
      Store.Request.get p.settings address.key = .ok fetch →
      Plans p (.set key value) (.readThenPut address value deferred fetch)
  | sadd {key : Bytes} {members : List Bytes} {address : Address} {request : Store.Request} :
      Address.parse key = .ok address →
      Store.Request.setUpdate p.settings address.key .add members = .ok request →
      Plans p (.sadd key members) (.write (.setUpdate address members.length) request)
  | srem {key : Bytes} {members : List Bytes} {address : Address} {request : Store.Request} :
      Address.parse key = .ok address →
      Store.Request.setUpdate p.settings address.key .remove members = .ok request →
      Plans p (.srem key members) (.write (.setUpdate address members.length) request)
  | incr {key : Bytes} {amount : Int64} {address : Address} {request : Store.Request} :
      Address.parse key = .ok address →
      Store.Request.counterUpdate p.settings address.key amount = .ok request →
      Plans p (.incr key amount) (.write (.counter address) request)
  | del {keys : List Bytes} {deletion : Store.Deletion} {stored : List (Address × Store.Request)} :
      Store.Deletion.ofKeys keys = .ok deletion →
      deletion.stored.mapM (fun address =>
        (Store.Request.delete p.settings address.key).map fun request => (address, request)) =
        .ok stored →
      Plans p (.del keys) (.delete deletion.cacheOnly stored)
  | algebra {op : SetOperator} {raw : Option Bytes} {keys : List Bytes} {sources : List Address}
      {dest : Option Address} : keys.mapM Address.parse = .ok sources →
      planDest raw = .ok dest → Plans p (.algebra op raw keys) (.combine op dest sources)

theorem plans_of_plan {p : Proxy} {command : Command} {plan : Plan}
    (h : p.plan command = .ok plan) : Plans p command plan := by
  cases command with
  | get key =>
      obtain ⟨address, parsed, rfl⟩ := map_eq_ok h
      exact .get parsed
  | smembers key =>
      obtain ⟨address, parsed, rfl⟩ := map_eq_ok h
      exact .smembers parsed
  | sismember key member =>
      obtain ⟨address, parsed, rfl⟩ := map_eq_ok h
      exact .sismember parsed
  | scard key =>
      obtain ⟨address, parsed, rfl⟩ := map_eq_ok h
      exact .scard parsed
  | set key value =>
      obtain ⟨address, parsed, h⟩ := bind_eq_ok h
      unfold planPut at h
      split at h
      · next vclock remembered =>
          obtain ⟨request, composed, rfl⟩ := map_eq_ok h
          exact .put parsed remembered composed
      · next remembered =>
          obtain ⟨deferred, composed, h⟩ := bind_eq_ok h
          obtain ⟨fetch, fetches, h⟩ := bind_eq_ok h
          cases h
          exact .readThenPut parsed remembered composed fetches
  | sadd key members =>
      obtain ⟨address, parsed, h⟩ := bind_eq_ok h
      obtain ⟨request, composed, h⟩ := bind_eq_ok h
      cases h
      exact .sadd parsed composed
  | srem key members =>
      obtain ⟨address, parsed, h⟩ := bind_eq_ok h
      obtain ⟨request, composed, h⟩ := bind_eq_ok h
      cases h
      exact .srem parsed composed
  | incr key amount =>
      obtain ⟨address, parsed, h⟩ := bind_eq_ok h
      obtain ⟨request, composed, h⟩ := bind_eq_ok h
      cases h
      exact .incr parsed composed
  | del keys =>
      obtain ⟨deletion, read, h⟩ := bind_eq_ok h
      obtain ⟨stored, composed, h⟩ := bind_eq_ok h
      cases h
      exact .del read composed
  | algebra op raw keys =>
      obtain ⟨sources, parsed, h⟩ := bind_eq_ok h
      obtain ⟨dest, planned, h⟩ := bind_eq_ok h
      cases h
      exact .algebra parsed planned

end Proxy

end ReadThrough
