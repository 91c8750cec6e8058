import ReadThrough.Proofs.Opening

/-!
A handler as a stack of tasks. What an operation hears decides which tasks it leaves; a task is done
at once, or replaced by others that come before what was left already.
-/

namespace ReadThrough.Proxy

inductive News where
  | value (answer : Resp.Value)
  | missed
  | response (server : Nat) (response : Store.Response)
  | failed (why : Failure)
  | lost (server : Nat) (reason : String)

inductive Task where
  | reply (client slot : Nat) (value : Reply)
  | part (group : Nat) (part : Fragment.Part)
  | copy (route : Bytes) (command : Cache.Command)
  | learn (address : Address) (vclock : Option Bytes)
  | news (id : Nat) (operation : Operation) (news : News)
  | send (id : Nat) (operation : Operation) (request : Store.Request)
  | elsewhere (id : Nat) (operation : Operation) (primary : Nat) (value : Reply)
  | launch (operation : Operation) (request : Store.Request)
  | lookUp (client : Nat) (target : Target) (read : Read)
  | delete (client slot count : Nat) (stored : List (Address × Store.Request))
  | combine (client slot : Nat) (op : SetOperator) (dest : Option Address)
      (sources : List Address)
  | poll (group : Nat)

def Task.number? : Task → Option Nat
  | .news id _ _ | .send id _ _ | .elsewhere id _ _ _ => some id
  | _ => none

def numbers (tasks : List Task) : List Nat :=
  tasks.filterMap Task.number?

section Numbers

variable {id : Nat} {operation : Operation}

@[simp] theorem number?_reply (client slot : Nat) (value : Reply) :
    (Task.reply client slot value).number? = none := rfl

@[simp] theorem number?_part (group : Nat) (part : Fragment.Part) :
    (Task.part group part).number? = none := rfl

@[simp] theorem number?_copy (route : Bytes) (command : Cache.Command) :
    (Task.copy route command).number? = none := rfl

@[simp] theorem number?_learn (address : Address) (vclock : Option Bytes) :
    (Task.learn address vclock).number? = none := rfl

@[simp] theorem number?_news (news : News) : (Task.news id operation news).number? = some id := rfl

@[simp] theorem number?_send (request : Store.Request) :
    (Task.send id operation request).number? = some id := rfl

@[simp] theorem number?_elsewhere (primary : Nat) (value : Reply) :
    (Task.elsewhere id operation primary value).number? = some id := rfl

@[simp] theorem number?_launch (request : Store.Request) :
    (Task.launch operation request).number? = none := rfl

@[simp] theorem numbers_empty : numbers [] = [] := rfl

@[simp] theorem numbers_append (tasks more : List Task) :
    numbers (tasks ++ more) = numbers tasks ++ numbers more :=
  List.filterMap_append

@[simp] theorem numbers_cons (task : Task) (tasks : List Task) :
    numbers (task :: tasks) = task.number?.toList ++ numbers tasks := by
  rw [numbers, List.filterMap_cons]
  cases task.number? <;> rfl

end Numbers

def copies (route : Bytes) (commands : List Cache.Command) : List Task :=
  commands.map (.copy route)

@[simp] theorem numbers_copies (route : Bytes) (commands : List Cache.Command) :
    numbers (copies route commands) = [] := by
  induction commands with
  | nil => rfl
  | cons command rest ih => exact ih

namespace Operation

variable (operation : Operation)

def conclude (value : Reply) : Task :=
  match operation.target with
  | .client slot => .reply operation.client slot value
  | .fragment group _ => .part group .failed

@[simp] theorem number?_conclude (value : Reply) : (operation.conclude value).number? = none := by
  unfold conclude
  split <;> rfl

def failing (why : Failure) : Task :=
  operation.conclude (Reply.failure why)

@[simp] theorem number?_failing (why : Failure) : (operation.failing why).number? = none :=
  operation.number?_conclude _

def deliver (read : SetRead) (members : List Bytes) : Task :=
  match read, operation.target with
  | .query query, _ => operation.conclude (query.answer members)
  | .slot, .fragment group index => .part group (.set index members)
  | .slot, .client _ => operation.conclude (Reply.members members)

@[simp] theorem number?_deliver (read : SetRead) (members : List Bytes) :
    (operation.deliver read members).number? = none := by
  unfold deliver
  split
  · exact operation.number?_conclude _
  · rfl
  · exact operation.number?_conclude _

def retry (id : Nat) (primary : Option Nat) (value : Reply) : Task :=
  if operation.isResendable then
    match primary with
    | some primary => .elsewhere id operation primary value
    | none => operation.conclude value
  else operation.conclude value

def onValue (id : Nat) (value : Resp.Value) : List Task :=
  match operation.stage with
  | .cacheRead read =>
      if value.isError then [.news id operation .missed]
      else
        match read with
        | .value _ =>
            if value.isNil then [.news id operation .missed] else [operation.conclude value]
        | .set _ (.query query) =>
            if Cache.isMiss query value then [.news id operation .missed]
            else [operation.conclude value]
        | .set _ .slot =>
            match Cache.members? value, operation.target with
            | some members, .fragment group index => [.part group (.set index members)]
            | _, _ => [.news id operation .missed]
  | _ => [operation.failing .unexpectedCacheReply]

def onMiss (settings : Settings) (id : Nat) : List Task :=
  match operation.stage with
  | .cacheRead read =>
      if !read.address.hasBucket then
        match read with
        | .value _ => [operation.conclude Reply.nil]
        | .set _ read => [operation.deliver read []]
      else
        match read.request settings with
        | .ok request => [.send id { operation with stage := .storeRead read } request]
        | .error why => [operation.failing why]
  | _ => [operation.failing .unexpectedCacheMiss]

section Response

variable (w : World) (p : Proxy) (id : Nat)

def onValueRead (address : Address) : Store.Response → List Task
  | .found siblings vclock =>
      .learn address vclock ::
        match Store.Outcome.ofSiblings (w.draw p.looks) siblings vclock with
        | .found value _ =>
            [.copy address.raw (Cache.populateValue address.raw value (p.ttl address)),
              operation.conclude (Reply.bulk value)]
        | .missing _ => [operation.retry id operation.primary Reply.nil]
  | _ => [operation.conclude (Reply.error "unexpected response to a get")]

def onSetRead (address : Address) (read : SetRead) : Store.Response → List Task
  | .set members _ =>
      match read, members with
      | .query query, [] => [operation.retry id operation.primary (query.answer [])]
      | read, members =>
          copies address.raw (Cache.populateSet address.raw members (p.ttl address)) ++
            [operation.deliver read members]
  | _ => [operation.conclude (Reply.error "unexpected response to a set fetch")]

def onVclock (address : Address) (value : Bytes) (deferred : Store.Request) :
    Store.Response → List Task
  | .found _ vclock =>
      [.learn address vclock,
        .send id
          { client := operation.client, target := operation.target
            stage := .storeWrite (.put address value) }
          (withVclock deferred vclock)]
  | _ => [operation.conclude (Reply.error "unexpected response to a vclock fetch")]

def replaced (dest : Address) (members : List Bytes) : List Task :=
  copies dest.raw (Cache.replaceSet dest.raw members (p.ttl dest)) ++
    [operation.conclude (Reply.count members.length)]

def onFetched (dest : Address) (members : List Bytes) : Store.Response → List Task
  | .set current context =>
      match Store.Request.setReplace p.settings dest.key current context members with
      | .ok (some request) =>
          [.send id
            { client := operation.client, target := operation.target
              stage := .storeWrite (.store dest members) }
            request]
      | .ok none => operation.replaced p dest members
      | .error why => [operation.failing why]
  | _ => [operation.conclude (Reply.error "unexpected response to a set fetch")]

def onWritten : Write → Store.Response → List Task
  | .put address value, .putAck vclock =>
      [.learn address vclock,
        .copy address.raw (Cache.populateValue address.raw value (p.ttl address)),
        operation.conclude Reply.ok]
  | .setUpdate address count, .updateAck =>
      [.copy address.raw (Cache.invalidate address.raw), operation.conclude (Reply.count count)]
  | .counter address, .counter value =>
      [.copy address.raw (Cache.invalidate address.raw), operation.conclude (Reply.integer value)]
  | .delete address, .deleteAck =>
      [.copy address.raw (Cache.invalidate address.raw),
        match operation.target with
        | .fragment group _ => .part group (.count 1)
        | .client _ => operation.conclude (Reply.integer 1)]
  | .store dest members, .updateAck => operation.replaced p dest members
  | _, _ => [operation.conclude (Reply.error "unexpected backend response")]

def onResponse (server : Nat) (response : Store.Response) : List Task :=
  match response with
  | .error message _ =>
      if (Store.Response.classify message).kind.isRetryable && operation.isResendable then
        [.elsewhere id operation (operation.primary.getD server)
          (Reply.failure (.serverLost server message))]
      else [operation.conclude (Reply.error message)]
  | _ =>
      match operation.stage with
      | .storeRead (.value address) => operation.onValueRead w p id address response
      | .storeRead (.set address read) => operation.onSetRead p id address read response
      | .awaitingVclock address value deferred =>
          operation.onVclock id address value deferred response
      | .storeFetch dest members => operation.onFetched p id dest members response
      | .storeWrite write => operation.onWritten p write response
      | .cacheRead _ => [operation.failing .responseToCacheRead]

def decide : News → List Task
  | .value value => operation.onValue id value
  | .missed => operation.onMiss p.settings id
  | .response server response => operation.onResponse w p id server response
  | .failed why => [operation.failing why]
  | .lost server reason =>
      [operation.retry id (some (operation.primary.getD server))
        (Reply.failure (.serverLost server reason))]

end Response

end Operation

def completion (settings : Settings) (group : Fragment.Group GroupContext) : Task :=
  match group.context with
  | .del slot => .reply group.client slot (Reply.integer (group.gathered.count?.getD 0))
  | .algebra slot op dest =>
      if 0 < group.failures then
        .reply group.client slot (missingSources op group.failures)
      else
        let result := Members.combine op group.gathered.toSets
        match dest with
        | none => .reply group.client slot (Reply.members result)
        | some dest =>
            match Store.Request.setFetch settings dest.key with
            | .error why => .reply group.client slot (Reply.failure why)
            | .ok request =>
                .launch
                  { client := group.client, target := .client slot
                    stage := .storeFetch dest result }
                  request

def closing (settings : Settings) (done : Option (Fragment.Group GroupContext)) : List Task :=
  (done.map (completion settings)).toList

def deletions (client group : Nat) (stored : List (Address × Store.Request)) : List Task :=
  stored.zipIdx.map fun part =>
    .launch
      { client, target := .fragment group part.2, stage := .storeWrite (.delete part.1.1) }
      part.1.2

def lookUps (client group : Nat) (sources : List Address) : List Task :=
  sources.zipIdx.map fun source =>
    .lookUp client (.fragment group source.2) (.set source.1 .slot)

def Plan.tasks (client slot : Nat) : Plan → List Task
  | .read sought => [.lookUp client (.client slot) sought]
  | .write change request =>
      [.launch { client, target := .client slot, stage := .storeWrite change } request]
  | .readThenPut address value deferred fetch =>
      [.launch
        { client, target := .client slot, stage := .awaitingVclock address value deferred } fetch]
  | .delete cacheOnly stored =>
      cacheOnly.map (fun address => .copy address.raw (Cache.invalidate address.raw)) ++
        [.delete client slot cacheOnly.length stored]
  | .combine op dest sources => [.combine client slot op dest sources]

structure Still (p q : Proxy) : Prop extends Alike p q where
  policy : q.policy = p.policy
  vclocks : q.vclocks = p.vclocks
  looks : p.looks ≤ q.looks

inductive Does (w : World) : Proxy → Task → Proxy → List Task → Prop where
  | reply {p : Proxy} {client slot : Nat} {value : Reply} :
      Does w p (.reply client slot value) (p.reply client slot value) []
  | bring {p : Proxy} {group : Nat} {part : Fragment.Part} :
      p.groups.accepts group part = true →
      Does w p (.part group part) { p with groups := (p.groups.contribute group part).2 }
        (closing p.settings (p.groups.contribute group part).1)
  | refuse {p : Proxy} {group : Nat} {part : Fragment.Part} :
      p.groups.accepts group part = false → Does w p (.part group part) p []
  | copy {p : Proxy} {route : Bytes} {command : Cache.Command} {server : Nat} :
      (w.pool p.looks).pick .cache route = some server →
      Does w p (.copy route command) ((p.look w).2.ask server .sideEffect command) []
  | drop {p : Proxy} {route : Bytes} {command : Cache.Command} :
      (w.pool p.looks).pick .cache route = none →
      Does w p (.copy route command) (p.look w).2 []
  | learn {p : Proxy} {address : Address} {vclock : Option Bytes} :
      Does w p (.learn address vclock) (p.rememberVclock address vclock) []
  | news {p : Proxy} {id : Nat} {operation : Operation} {news : News} :
      Does w p (.news id operation news) p (operation.decide w p id news)
  | send {p : Proxy} {id : Nat} {operation : Operation} {request : Store.Request} {server : Nat} :
      request.checkSize p.settings.maxFrameSize = .ok () →
      (w.pool p.looks).pick .store operation.stage.address.raw = some server →
      Does w p (.send id operation request)
        ((p.look w).2.dispatch id
          { operation with request := some request, primary := some server } request server)
        []
  | oversize {p : Proxy} {id : Nat} {operation : Operation} {request : Store.Request}
      {why : Failure} : request.checkSize p.settings.maxFrameSize = .error why →
      Does w p (.send id operation request) p [operation.failing why]
  | unreached {p : Proxy} {id : Nat} {operation : Operation} {request : Store.Request} :
      request.checkSize p.settings.maxFrameSize = .ok () →
      (w.pool p.looks).pick .store operation.stage.address.raw = none →
      Does w p (.send id operation request) (p.look w).2 [operation.failing .noStoreServer]
  | again {p : Proxy} {id : Nat} {operation : Operation} {primary : Nat} {value : Reply}
      {request : Store.Request} {server : Nat} {resend : Pool.Resend} :
      operation.isResendable = true → operation.request = some request →
      operation.resend.next ((w.pool p.looks).live .store) primary
        p.settings.effectiveMaxResend = (some server, resend) →
      Does w p (.elsewhere id operation primary value)
        ((p.look w).2.dispatch id { operation with resend } request server) []
  | exhausted {p : Proxy} {id : Nat} {operation : Operation} {primary : Nat} {value : Reply}
      {resend : Pool.Resend} :
      operation.resend.next ((w.pool p.looks).live .store) primary
        p.settings.effectiveMaxResend = (none, resend) →
      Does w p (.elsewhere id operation primary value) (p.look w).2 [operation.conclude value]
  | launch {p : Proxy} {operation : Operation} {request : Store.Request} :
      Does w p (.launch operation request) p.newOperation.2
        [.send p.nextOperation operation request]
  | lookUp {p : Proxy} {client : Nat} {target : Target} {read : Read} {server : Nat} :
      (w.pool p.looks).pick .cache read.address.raw = some server →
      Does w p (.lookUp client target read)
        (((p.newOperation.2.look w).2.ask server (.operation p.nextOperation)
          read.lookup).addOperation p.nextOperation { client, target, stage := .cacheRead read })
        []
  | pass {p : Proxy} {client : Nat} {target : Target} {read : Read} :
      (w.pool p.looks).pick .cache read.address.raw = none →
      Does w p (.lookUp client target read) (p.newOperation.2.look w).2
        [.news p.nextOperation { client, target, stage := .cacheRead read } .missed]
  | delete {p : Proxy} {client slot count : Nat} {stored : List (Address × Store.Request)} :
      Does w p (.delete client slot count stored)
        (p.openGroup client stored.length (.count (Int64.ofNat count)) (.del slot)).2
        (deletions client p.groups.next stored ++ [.poll p.groups.next])
  | combine {p : Proxy} {client slot : Nat} {op : SetOperator} {dest : Option Address}
      {sources : List Address} :
      Does w p (.combine client slot op dest sources)
        (p.openGroup client sources.length (.emptySets sources.length) (.algebra slot op dest)).2
        (lookUps client p.groups.next sources)
  | poll {p : Proxy} {group : Nat} :
      Does w p (.poll group) { p with groups := (p.groups.poll group).2 }
        (closing p.settings (p.groups.poll group).1)

inductive Step (w : World) : Proxy × List Task → Proxy × List Task → Prop where
  | still {p q : Proxy} {tasks : List Task} : Still p q → Step w (p, tasks) (q, tasks)
  | task {p q : Proxy} {task : Task} {more rest : List Task} : Does w p task q more →
      Step w (p, task :: rest) (q, more ++ rest)

abbrev Steps (w : World) : Proxy × List Task → Proxy × List Task → Prop :=
  Relation.ReflTransGen (Step w)

def Leads (w : World) (p : Proxy) (tasks : List Task) (q : Proxy) : Prop :=
  ∀ rest, Steps w (p, tasks ++ rest) (q, rest)

namespace Leads

variable {w : World} {p q r : Proxy} {tasks more : List Task} {task : Task}

theorem nil : Leads w p [] p := fun _ => .refl

theorem append (h : Leads w p tasks q) (h' : Leads w q more r) : Leads w p (tasks ++ more) r := by
  intro rest
  rw [List.append_assoc]
  exact (h _).trans (h' rest)

theorem cons (h : Leads w p [task] q) (h' : Leads w q more r) : Leads w p (task :: more) r :=
  h.append h'

theorem still (h : Still p q) (h' : Leads w q tasks r) : Leads w p tasks r :=
  fun rest => (h' rest).head (.still h)

theorem does (h : Does w p task q more) (h' : Leads w q more r) : Leads w p [task] r :=
  fun rest => (h' rest).head (.task h)

theorem done (h : Does w p task q []) : Leads w p [task] q := .does h .nil

end Leads

namespace Still

variable {w : World} (p : Proxy)

theorem refl : Still p p := ⟨⟨⟨rfl, rfl, rfl, rfl, rfl, rfl, rfl⟩, rfl⟩, rfl, rfl, Nat.le_refl _⟩

theorem look (w : World) : Still p (p.look w).2 := ⟨Alike.look w p, rfl, rfl, Nat.le_succ _⟩

theorem toss (w : World) : Still p (p.toss w).2 := ⟨Alike.toss w p, rfl, rfl, Nat.le_succ _⟩

theorem breach (what : Breach) : Still p (p.breach what) :=
  ⟨Alike.breach p what, rfl, rfl, Nat.le_refl _⟩

variable {p} {q r : Proxy}

theorem trans (h : Still p q) (h' : Still q r) : Still p r where
  toAlike := h.toAlike.trans h'.toAlike
  policy := h'.policy.trans h.policy
  vclocks := h'.vclocks.trans h.vclocks
  looks := Nat.le_trans h.looks h'.looks

end Still

section Steps

variable {w : World} {p q : Proxy} {task : Task} {rest : List Task}

theorem steps_cons (done : Steps w (p, task :: rest) (q, [])) :
    ∃ r r' more, Still p r ∧ Does w r task r' more ∧ Steps w (r', more ++ rest) (q, []) := by
  obtain ⟨a, tasks⟩ : ∃ a : Proxy × List Task, a = (p, task :: rest) := ⟨_, rfl⟩
  rw [← tasks] at done
  induction done using Relation.ReflTransGen.head_induction_on generalizing p with
  | refl => cases tasks
  | head first others ih =>
      cases first with
      | still same =>
          cases tasks
          obtain ⟨r, r', more, still, does, later⟩ := ih rfl
          exact ⟨r, r', more, same.trans still, does, later⟩
      | task does =>
          cases tasks
          exact ⟨p, _, _, .refl p, does, others⟩

theorem steps_nil {a b : Proxy × List Task} (done : Steps w a b) (none : a.2 = []) :
    Still a.1 b.1 := by
  induction done using Relation.ReflTransGen.head_induction_on with
  | refl => exact .refl _
  | head first _ ih =>
      cases first with
      | still same => exact same.trans (ih none)
      | task does => cases none

end Steps

end ReadThrough.Proxy
