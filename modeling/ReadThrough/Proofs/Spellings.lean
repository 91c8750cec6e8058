import ReadThrough.Proofs.Deletions
import ReadThrough.Proofs.Questions
import ReadThrough.Proofs.Returned

namespace ReadThrough

def Command.target? : Command → Option Bytes
  | .set key _ | .sadd key _ | .srem key _ | .incr key _ => some key
  | .algebra _ dest _ => dest
  | .get _ | .del _ | .smembers _ | .sismember .. | .scard _ => none

def Command.sought : Command → List Bytes
  | .get key | .smembers key | .sismember key _ | .scard key => [key]
  | .algebra _ _ keys => keys
  | .set .. | .del _ | .sadd .. | .srem .. | .incr .. => []

theorem Command.writes_of_target {command : Command} {raw : Bytes}
    (target : command.target? = some raw) : command.Writes := by
  cases command with
  | set | sadd | srem | incr => trivial
  | algebra op dest keys =>
      rintro rfl
      cases target
  | _ => cases target

namespace Cache

structure Renewing (key : Bytes) (commands : List Command) : Prop where
  own : ∀ command ∈ commands, command.key = key ∧ command.mutates = true
  renews : ∃ command ∈ commands, command.renews = true

theorem Renewing.populateValue (key value : Bytes) (ttl : Option Nat) :
    Renewing key [populateValue key value ttl] where
  own := List.forall_mem_singleton.mpr ⟨rfl, rfl⟩
  renews := ⟨_, List.mem_singleton_self _, rfl⟩

theorem Renewing.invalidate (key : Bytes) : Renewing key [invalidate key] where
  own := List.forall_mem_singleton.mpr ⟨rfl, rfl⟩
  renews := ⟨_, List.mem_singleton_self _, rfl⟩

theorem key_populateSet (key : Bytes) (members : List Bytes) (ttl : Option Nat) :
    ∀ command ∈ populateSet key members ttl, command.key = key := by
  unfold populateSet
  split
  · exact List.forall_mem_nil _
  · cases ttl with
    | none => exact List.forall_mem_singleton.mpr rfl
    | some ttl => exact List.forall_mem_cons.mpr ⟨rfl, List.forall_mem_singleton.mpr rfl⟩

theorem Renewing.replaceSet (key : Bytes) (members : List Bytes) (ttl : Option Nat) :
    Renewing key (replaceSet key members ttl) where
  own := List.forall_mem_cons.mpr ⟨⟨rfl, rfl⟩, fun command hm =>
    ⟨key_populateSet key members ttl command hm,
      Proxy.mutates_populateSet key members ttl command hm⟩⟩
  renews := ⟨.del key, List.mem_cons_self, rfl⟩

end Cache

namespace Proxy

section Renewal

variable {w : World} {p q : Proxy} {ms : List Move} {move : Move} {start id time : Nat}
  {operation : Operation} {news : News} {response : Store.Response} {value : Reply} {raw : Bytes}
  {command : Command} {plan : Plan} {past : History} {settings : Settings} {place : Option Nat}
  {stage : Stage} {asked : Option Store.Request} {sent : List Sending}

theorem renewing_renewal (acknowledged : stage.acknowledgement? response = some value)
    (lifetime : Option Nat) : Cache.Renewing stage.address.raw (stage.renewal lifetime) := by
  unfold Stage.acknowledgement? at acknowledged
  split at acknowledged
  · exact .populateValue _ _ lifetime
  · exact .invalidate _
  · exact .invalidate _
  · exact .replaceSet _ _ lifetime
  · exact .replaceSet _ _ lifetime
  · cases acknowledged

theorem raw_of_acknowledgement (plans : Plans q command plan)
    (trail : Trail w past settings start id plan place stage asked sent)
    (target : command.target? = some raw)
    (acknowledged : stage.acknowledgement? response = some value) : stage.address.raw = raw := by
  cases plans with
  | get | smembers | sismember | scard | del => cases target
  | put parsed | sadd parsed | srem parsed | incr parsed =>
      cases trail
      cases target
      exact raw_of_parse parsed
  | readThenPut parsed =>
      cases target
      cases trail with
      | fetch => cases response <;> cases acknowledged
      | put => exact raw_of_parse parsed
  | algebra _ planned =>
      obtain rfl : _ = some raw := target
      cases trail with
      | source | sourceRead => cases response <;> cases acknowledged
      | dest | replace =>
          obtain ⟨key, same, parsed⟩ := parse_of_planDest planned
          cases same
          exact raw_of_parse parsed

structure Refreshed (w : World) (p : Proxy) (ms : List Move) (start : Nat) (raw : Bytes)
    (time : Nat) : Prop where
  works : Works w (history w p ms) start time
  renewed : ∃ move commands, ms[time]? = some move ∧ Cache.Renewing raw commands ∧
    Posted w (Looked w (history w p ms) time) (commands.map (raw, ·))
      (mutations (move.emits w (play w p (ms.take time)))) ∧
    ∀ action ∈ move.emits w (play w p (ms.take time)), action.asks = false

theorem refreshed_of_told (made : ms[time]? = some move)
    (told : move.news? (play w p (ms.take time)) = some (id, news))
    (ho : (play w p (ms.take time)).operations.get? id = some operation)
    (stems : Stems w (history w p ms) start id)
    (decides : ∀ q : Proxy, ∃ front commands last, Cache.Renewing raw commands ∧
      (∀ t ∈ front, t.Still) ∧ (∀ t ∈ last, t.Still) ∧
      operation.decide w q id news = front ++ copies raw commands ++ last) :
    Refreshed w p ms start raw time := by
  have at' : (history w p ms)[time]? = some (play w p (ms.take time), move) :=
    getElem?_history.mpr ⟨made, rfl⟩
  obtain ⟨r, same, -, done⟩ := decided_of_told told w ho
  obtain ⟨front, commands, last, renewing, still, still', decided⟩ := decides r
  rw [decided] at done
  have changes := changes_of_plain same done (by
    refine List.forall_mem_append.mpr ⟨List.forall_mem_append.mpr ⟨?_, ?_⟩, ?_⟩
    · exact fun t ht => (still t ht).1
    · intro t ht
      obtain ⟨command, hm, rfl⟩ := List.mem_map.mp ht
      exact (renewing.own command hm).2
    · exact fun t ht => (still' t ht).1)
  rw [copied_append, copied_append, copied_of_still still, copied_of_still still', copied_copies,
    List.nil_append, List.append_nil] at changes
  refine ⟨Or.inr ⟨_, move, id, at', subject?_of_news? told, stems⟩, move, commands, made, renewing,
    changes.1.mono fun look between => ⟨_, move, at', between⟩, ?_⟩
  refine changes.2.resolve_left fun none => ?_
  obtain ⟨command, hm, -⟩ := renewing.renews
  rw [List.map_eq_nil_iff.mp none] at hm
  cases hm

theorem refreshed_of_heeded (trailed : Trailed w [] p) {client : Nat}
    (request : ms[start]? = some (.request client (.ok command)))
    (target : command.target? = some raw) (heeded : Heeded w p ms start time value) :
    Refreshed w p ms start raw time := by
  obtain ⟨move, id, operation, server, response, made, told, ho, stems, acknowledged⟩ := heeded
  obtain ⟨start', command', root, planned, stems', stands⟩ := (trailed.play (ms.take time)).table ho
  obtain ⟨rfl, rfl, of⟩ := root_of_request request stems planned stems'
  obtain ⟨place, -, trail⟩ := stands.trail
  obtain rfl := raw_of_acknowledgement (plans_of_plan of.plan) trail target acknowledged
  refine refreshed_of_told made told ho stems fun q => ?_
  obtain ⟨learned, learns, decided⟩ := decide_of_acknowledgement (w := w) acknowledged id server q
  refine ⟨learned, _, [operation.conclude value], renewing_renewal acknowledged _, ?_, still_ends _,
    decided⟩
  intro t ht
  obtain ⟨address, vclock, rfl⟩ := learns t ht
  exact ⟨trivial, rfl⟩

end Renewal

section Deletion

variable {w : World} {p : Proxy} {ms : List Move} {client start index : Nat} {keys : List Bytes}
  {addresses : List Address} {address : Address}

theorem refreshed_of_acked (trailed : Trailed w [] p)
    (request : ms[start]? = some (.request client (.ok (.del keys))))
    (parsed : keys.mapM Address.parse = .ok addresses)
    (part : (addresses.filter (·.hasBucket))[index]? = some address)
    (acked : Acked w (history w p ms) start index) :
    ∃ time, Refreshed w p ms start address.raw time := by
  obtain ⟨time, operation, server, q, move, id, group, at', told, ho, target, stems⟩ := acked
  obtain ⟨made, rfl⟩ := getElem?_history.mp at'
  rw [take_history] at stems
  obtain ⟨start', command', root, planned, stems', stands⟩ := (trailed.play (ms.take time)).table ho
  obtain ⟨rfl, rfl, of⟩ := root_of_request request stems.of_take planned stems'
  have plan := Except.ok.inj (of.plan.symm.trans (plan_del _ parsed start'))
  obtain ⟨group', index', address', target', part', stage, -⟩ :=
    Stands.deletes (c := ⟨start', _, _⟩) stands plan
  cases target.symm.trans target'
  cases part.symm.trans part'
  refine ⟨time, refreshed_of_told made told ho stems.of_take fun q => ?_⟩
  rcases decide_of_delete target stage (.response server .deleteAck) with ⟨-, decided⟩ | ⟨other, -⟩
  · exact ⟨[], _, [.part group (.count 1)], .invalidate address.raw, List.forall_mem_nil _,
      List.forall_mem_singleton.mpr ⟨trivial, rfl⟩, decided⟩
  · exact absurd rfl (other server)

theorem acked_of_counted {events : List Event} {slot : Nat} {raw : Bytes} (sessions : Sessions w [] p)
    (trailed : Trailed w [] p) (balanced : Balanced p []) (run : ms <+: course w p events)
    (asked : (session w client (history w p ms)).asked[slot]? = some start)
    (request : ms[start]? = some (.request client (.ok (.del [raw]))))
    (parsed : Address.parse raw = .ok address) (bucket : address.hasBucket = true)
    (given : (slot, some (Reply.count 1)) ∈ tape w (history w p ms) (play w p ms) client) :
    Acked w (history w p ms) start 0 := by
  have all : [raw].mapM Address.parse = .ok [address] := by
    rw [List.mapM_cons, parsed]
    rfl
  have planned := plan_del (play w p (ms.take start)) all start
  rw [settings_play] at planned
  obtain ⟨numbers, here⟩ := attended_of_plan sessions request asked run planned
  let c : Erasure := ⟨start, [address].filter (!·.hasBucket), [address].filter (·.hasBucket)⟩
  have accounts : Accounts w p events start (.del [raw])
      ⟨client, slot, c.plan p.settings, numbers⟩ _ _ := c.accounts sessions trailed balanced rfl
  obtain ⟨due, ⟨acked, counts, rfl⟩, same⟩ := accounts.allowed_of_given here sessions trailed balanced
    (fun result same => Erasure.Result.of_same same result) given
  have stored : c.stored.length = 1 := by simp [c, bucket]
  have others : c.cacheOnly.length = 0 := by simp [c, bucket]
  by_contra missed
  have none : acked = ∅ := by
    refine Finset.eq_empty_of_forall_notMem fun index among => ?_
    obtain ⟨lt, heard⟩ := (counts index).mp among
    obtain rfl : index = 0 := by omega
    exact missed heard
  rw [none, others] at same
  have one : Int64.ofNat 1 = Int64.ofNat 0 := Resp.Value.integer.inj same
  exact absurd one (by decide)

end Deletion

section Asks

variable {w : World} {p q : Proxy} {task : Task} {more : List Task} {keys : List Bytes}
  {move : Move}

def Task.Seeks (keys : List Bytes) : Task → Prop
  | .lookUp _ _ read => read.address.raw ∈ keys
  | .combine _ _ _ _ sources => ∀ source ∈ sources, source.raw ∈ keys
  | _ => False

def Seeking (w : World) (looked : Nat → Prop) (keys : List Bytes) (action : Action) : Prop :=
  ∃ server entry lookup look, action = .cache server entry lookup ∧ lookup.key ∈ keys ∧
    looked look ∧ (w.pool look).pick .cache lookup.key = some server

theorem Seeking.mono {looked looked' : Nat → Prop} {action : Action}
    (h : Seeking w looked keys action) (le : ∀ look, looked look → looked' look) :
    Seeking w looked' keys action := by
  obtain ⟨server, entry, lookup, look, same, sought, between, picked⟩ := h
  exact ⟨server, entry, lookup, look, same, sought, le look between, picked⟩

theorem key_lookup (read : Read) : read.lookup.key = read.address.raw := by
  unfold Read.lookup
  split <;> rfl

theorem Does.seeks (done : Does w p task q more) (seeks : task.Seeks keys) :
    ∃ actions, q.outbox = p.outbox ++ actions ∧
      (∀ action ∈ actions, Seeking w (Between p q) keys action) ∧
      ∀ t ∈ more, t.Plain ∨ t.Seeks keys := by
  cases done with
  | @lookUp client target read server picked =>
      rw [← key_lookup] at picked
      refine ⟨_, rfl, List.forall_mem_singleton.mpr ?_, List.forall_mem_nil _⟩
      exact ⟨server, _, read.lookup, p.looks, rfl, key_lookup read ▸ seeks,
        ⟨le_rfl, Nat.lt_succ_self _⟩, picked⟩
  | pass =>
      exact ⟨[], (List.append_nil _).symm, List.forall_mem_nil _,
        List.forall_mem_singleton.mpr (Or.inl rfl)⟩
  | combine =>
      refine ⟨[], (List.append_nil _).symm, List.forall_mem_nil _, fun t ht => ?_⟩
      obtain ⟨source, among, rfl⟩ := List.mem_map.mp ht
      exact Or.inr (seeks source.1 (List.fst_mem_of_mem_zipIdx among))
  | _ => exact seeks.elim

theorem seeks_of_steps {a b : Proxy × List Task} (done : Steps w a b)
    (seeks : ∀ t ∈ a.2, t.Plain ∨ t.Seeks keys) :
    ∃ actions, b.1.outbox = a.1.outbox ++ actions ∧
      ∀ action ∈ actions, action.asks = true → Seeking w (Between a.1 b.1) keys action := by
  induction done using Relation.ReflTransGen.head_induction_on with
  | refl => exact ⟨[], (List.append_nil _).symm, List.forall_mem_nil _⟩
  | head first others ih =>
      have later := (Frame.steps others).looks
      cases first with
      | still same =>
          obtain ⟨actions, outbox, asks⟩ := ih seeks
          refine ⟨actions, by rw [outbox, same.outbox], fun action hm ask => ?_⟩
          exact (asks action hm ask).mono fun look between =>
            ⟨same.looks.trans between.1, between.2⟩
      | @task p q task more rest does =>
          obtain ⟨head, tail⟩ := List.forall_mem_cons.mp seeks
          obtain ⟨actions, outbox, asks, left⟩ : ∃ actions, q.outbox = p.outbox ++ actions ∧
              (∀ action ∈ actions, action.asks = true → Seeking w (Between p q) keys action) ∧
              ∀ t ∈ more, t.Plain ∨ t.Seeks keys := by
            rcases head with plain | seeks
            · obtain ⟨actions, outbox, -, only, still⟩ := does.posts plain
              refine ⟨actions, outbox, fun action hm ask => ?_, fun t ht => Or.inl (still t ht).1⟩
              rw [only action hm] at ask
              cases ask
            · obtain ⟨actions, outbox, asks, left⟩ := does.seeks seeks
              exact ⟨actions, outbox, fun action hm _ => asks action hm, left⟩
          obtain ⟨others, outbox', asks'⟩ := ih (List.forall_mem_append.mpr ⟨left, tail⟩)
          refine ⟨actions ++ others, by rw [outbox', outbox, List.append_assoc],
            List.forall_mem_append.mpr ⟨fun action hm ask => ?_, fun action hm ask => ?_⟩⟩
          · exact (asks action hm ask).mono fun look between =>
              ⟨between.1, Nat.lt_of_lt_of_le between.2 later⟩
          · exact (asks' action hm ask).mono fun look between =>
              ⟨(Frame.does does).looks.trans between.1, between.2⟩

theorem seeks_of_tasks {r : Proxy} {tasks : List Task} (same : Still (move.ready p) r)
    (done : Steps w (r, tasks) (move.apply w p, []))
    (seeks : ∀ t ∈ tasks, t.Plain ∨ t.Seeks keys) :
    ∀ action ∈ move.emits w p, action.asks = true →
      Seeking w (Between p (move.apply w p)) keys action := by
  obtain ⟨actions, outbox, asks⟩ := seeks_of_steps done seeks
  rw [same.outbox, (akin_ready p move).outbox] at outbox
  rw [emits_of_outbox move w outbox]
  refine List.forall_mem_append.mpr ⟨fun action hm ask => ?_, fun action hm ask => ?_⟩
  · cases move with
    | cacheProtest | storeProtest =>
        cases List.mem_singleton.mp hm
        cases ask
    | _ => cases hm
  · exact (asks action hm ask).mono fun look between =>
      ⟨looks_ready p move ▸ same.looks.trans between.1, between.2⟩

theorem seeks_of_plans {command : Command} {plan : Plan} (plans : Plans q command plan)
    (client slot : Nat) : ∀ t ∈ plan.tasks client slot, t.Plain ∨ t.Seeks command.sought := by
  have own : ∀ {raw : Bytes} {address : Address}, Address.parse raw = .ok address →
      address.raw ∈ [raw] := fun parsed => List.mem_singleton.mpr (raw_of_parse parsed)
  cases plans with
  | get parsed | smembers parsed | sismember parsed | scard parsed =>
      exact List.forall_mem_singleton.mpr (Or.inr (own parsed))
  | put | readThenPut | sadd | srem | incr => exact List.forall_mem_singleton.mpr (Or.inl trivial)
  | del =>
      refine List.forall_mem_append.mpr ⟨fun t ht => ?_, List.forall_mem_singleton.mpr (Or.inl trivial)⟩
      obtain ⟨address, -, rfl⟩ := List.mem_map.mp ht
      exact Or.inl rfl
  | algebra parsed =>
      refine List.forall_mem_singleton.mpr (Or.inr fun source among => ?_)
      obtain ⟨raw, hm, parsed⟩ := exists_of_mem_mapM parsed among
      exact raw_of_parse parsed ▸ hm

theorem seeks_of_apply (w : World) (p : Proxy) (move : Move) :
    ∀ action ∈ move.emits w p, action.asks = true → ∃ client command,
      move = .request client (.ok command) ∧
        Seeking w (Between p (move.apply w p)) command.sought action := by
  have nothing : ∀ {tasks : List Task} {r : Proxy}, Still (move.ready p) r →
      Steps w (r, tasks) (move.apply w p, []) → (∀ t ∈ tasks, t.Plain) →
      ∀ action ∈ move.emits w p, action.asks = true → ∃ client command,
        move = .request client (.ok command) ∧
          Seeking w (Between p (move.apply w p)) command.sought action := by
    intro tasks r same done plain action hm ask
    have none : Seeking w (Between p (move.apply w p)) [] action :=
      seeks_of_tasks same done (fun t ht => Or.inl (plain t ht)) action hm ask
    obtain ⟨server, entry, lookup, look, -, among, -⟩ := none
    cases among
  rcases tasks_cases w p move with replies | ⟨command, root, rfl, of, tasks⟩ |
    ⟨id, operation, news, told, ho, -⟩
  · refine nothing (.refl _) (steps_apply w p move) fun t ht => ?_
    obtain ⟨client, slot, value, rfl⟩ := replies t ht
    trivial
  · intro action hm ask
    have run := steps_apply w p (.request root.client (.ok command))
    rw [tasks] at run
    exact ⟨root.client, command, rfl,
      seeks_of_tasks (.refl _) run (seeks_of_plans (plans_of_plan of.plan) _ _) action hm ask⟩
  · obtain ⟨r, same, -, done⟩ := decided_of_told told w ho
    refine nothing same done ?_
    rcases warranted_decide w r id operation news with ⟨server, response, -, plain, -⟩ | still
    · exact plain
    · exact fun t ht => (still t ht).1

end Asks

section Told

variable {w : World} {p : Proxy} {ms : List Move} {move : Move} {start time server : Nat}
  {raw : Bytes} {command : Cache.Command} {looked : Nat → Prop} {commands : List Routed}
  {sent : List (Nat × Cache.Command)}

theorem Posted.mem (h : Posted w looked commands sent)
    (picks : ∀ look, looked look → (w.pool look).pick .cache raw = some server)
    (hm : (raw, command) ∈ commands) : (server, command) ∈ sent := by
  induction h with
  | nil => cases hm
  | sent look picked _ ih =>
      rcases List.mem_cons.mp hm with same | hm
      · cases same
        cases (picks _ look).symm.trans picked
        exact List.mem_cons_self
      · exact List.mem_cons_of_mem _ (ih hm)
  | dropped look picked _ ih =>
      rcases List.mem_cons.mp hm with same | hm
      · cases same
        cases (picks _ look).symm.trans picked
      · exact ih hm

theorem Posted.of_mem (h : Posted w looked commands sent) (hm : (server, command) ∈ sent) :
    ∃ route, (route, command) ∈ commands := by
  induction h with
  | nil => cases hm
  | @sent look server' route' command' rest sent' _ _ _ ih =>
      rcases List.mem_cons.mp hm with same | hm
      · cases same
        exact ⟨_, List.mem_cons_self⟩
      · exact (ih hm).imp fun route => List.mem_cons_of_mem _
  | dropped _ _ _ ih => exact (ih hm).imp fun route => List.mem_cons_of_mem _

theorem Refreshed.renews (h : Refreshed w p ms start raw time) (made : ms[time]? = some move)
    (picks : ∀ look, Looked w (history w p ms) time look →
      (w.pool look).pick .cache raw = some server) :
    ∃ command ∈ tells w (play w p (ms.take time)) move server,
      command.key = raw ∧ command.renews = true := by
  obtain ⟨move', commands, made', renewing, posted, -⟩ := h.renewed
  cases made.symm.trans made'
  obtain ⟨command, hm, renews⟩ := renewing.renews
  refine ⟨command, mem_tells.mpr ?_, (renewing.own command hm).1, renews⟩
  have sent := posted.mem picks (List.mem_map_of_mem hm)
  obtain ⟨action, hm, same⟩ := List.mem_filterMap.mp sent
  cases action with
  | cache server' entry command' =>
      simp only [Action.mutation?] at same
      split at same
      · cases same
        exact ⟨entry, hm⟩
      · cases same
  | _ => cases same

theorem Refreshed.own (h : Refreshed w p ms start raw time) (made : ms[time]? = some move)
    (told : command ∈ tells w (play w p (ms.take time)) move server) : command.key = raw := by
  obtain ⟨move', commands, made', renewing, posted, only⟩ := h.renewed
  cases made.symm.trans made'
  obtain ⟨entry, hm⟩ := mem_tells.mp told
  have mutates : command.mutates = true := by simpa [Action.asks] using only _ hm
  have sent : (server, command) ∈ mutations (move.emits w (play w p (ms.take time))) :=
    List.mem_filterMap.mpr ⟨_, hm, if_pos mutates⟩
  obtain ⟨route, hm⟩ := posted.of_mem sent
  obtain ⟨command', hm, same⟩ := List.mem_map.mp hm
  cases same
  exact (renewing.own command hm).1

theorem Refreshed.forgets (h : Refreshed w p ms start raw time) (made : ms[time]? = some move)
    (picks : ∀ look, Looked w (history w p ms) time look →
      (w.pool look).pick .cache raw = some server)
    {cache : Cache.Server} {contents other : cache.Contents} {now later : List Cache.Happening}
    (told : now.filterMap Cache.Happening.command? = tells w (play w p (ms.take time)) move server)
    (agree : ∀ key, key ≠ raw → contents key = other key) :
    cache.answers (cache.after contents now) later = cache.answers (cache.after other now) later := by
  obtain ⟨command, hm, own, renews⟩ := h.renews made picks
  rw [← told] at hm
  obtain ⟨happening, hm, same⟩ := List.mem_filterMap.mp hm
  cases happening with
  | told command' =>
      cases same
      exact congrArg (cache.answers · later)
        (Cache.Server.after_eq_of_renewed (own ▸ agree) renews hm)
  | lapsed key => cases same

end Told

structure Spelled (w : World) (p : Proxy) (events : List Event) : Prop
    extends Unrolled w p events where
  sought : ∀ ms move, ms ++ [move] <+: course w p events →
    ∀ action ∈ move.emits w (play w p ms), action.asks = true → ∃ client command,
      move = .request client (.ok command) ∧
        Seeking w (Looked w (history w p (ms ++ [move])) ms.length) command.sought action
  acknowledged : ∀ ms, ms <+: course w p events → ∀ client slot start command value raw,
    (session w client (history w p ms)).asked[slot]? = some start →
    ms[start]? = some (.request client (.ok command)) → command.target? = some raw →
    (slot, some value) ∈ tape w (history w p ms) (play w p ms) client → value.isError = false →
    ∃ time, Refreshed w p ms start raw time
  deleted : ∀ ms, ms <+: course w p events → ∀ client start keys addresses index address,
    ms[start]? = some (.request client (.ok (.del keys))) →
    keys.mapM Address.parse = .ok addresses →
    (addresses.filter (·.hasBucket))[index]? = some address →
    Acked w (history w p ms) start index → ∃ time, Refreshed w p ms start address.raw time
  counted : ∀ ms, ms <+: course w p events → ∀ client slot start raw address,
    (session w client (history w p ms)).asked[slot]? = some start →
    ms[start]? = some (.request client (.ok (.del [raw]))) → Address.parse raw = .ok address →
    address.hasBucket = true →
    (slot, some (Reply.count 1)) ∈ tape w (history w p ms) (play w p ms) client →
    Acked w (history w p ms) start 0
  forgotten : ∀ ms, ms <+: course w p events → ∀ start raw time server move,
    Refreshed w p ms start raw time → ms[time]? = some move →
    (∀ look, Looked w (history w p ms) time look → (w.pool look).pick .cache raw = some server) →
    ∀ (cache : Cache.Server) (now later : List Cache.Happening),
      now.filterMap Cache.Happening.command? = tells w (play w p (ms.take time)) move server →
      ∀ contents other : cache.Contents, (∀ key, key ≠ raw → contents key = other key) →
        cache.answers (cache.after contents now) later = cache.answers (cache.after other now) later
  /-- What the server gives to whoever works for a request that comes in after the acknowledgement
  would be the same had the copy been another. -/
  shown : ∀ ms more, ms ++ more <+: course w p events → ∀ start raw time server move,
    Refreshed w p ms start raw time → ms[time]? = some move →
    (∀ look, Looked w (history w p ms) time look → (w.pool look).pick .cache raw = some server) →
    ∀ (cache : Cache.Server) (contents : cache.Contents) (before now later : List Cache.Happening),
      Executes w p (ms ++ more) server cache contents (before ++ now ++ later) →
      before.filterMap Cache.Happening.command? = told w p (ms.take time) server →
      now.filterMap Cache.Happening.command? = tells w (play w p (ms.take time)) move server →
      ∀ asked heard value, ms.length ≤ asked →
        Receives w p (ms ++ more) asked heard server value →
        ∃ place : Nat, ∀ other : cache.Contents,
          (∀ key, key ≠ raw → cache.after contents before key = other key) →
          (cache.answers (cache.after other now) later)[place]? = some value
  kept : ∀ ms, ms <+: course w p events → ∀ start raw time server move,
    Refreshed w p ms start raw time → ms[time]? = some move →
    ∀ (cache : Cache.Server) (contents : cache.Contents) key, key ≠ raw →
      cache.after contents ((tells w (play w p (ms.take time)) move server).map .told) key =
        contents key

theorem spelled_run (w : World) (settings : Settings) (policy : BucketPolicy)
    (events : List Event) : Spelled w (start settings policy) events where
  toUnrolled := unrolled_of_tidy w (Tidy.start settings policy) events
  sought := by
    intro ms move _ action hm ask
    obtain ⟨client, command, same, seeking⟩ := seeks_of_apply w _ move action hm ask
    refine ⟨client, command, same, seeking.mono fun look between => ⟨_, move, ?_, between⟩⟩
    rw [history_concat, List.getElem?_append_right length_history.le, length_history, Nat.sub_self]
    rfl
  acknowledged := by
    intro ms _ client slot start command value raw asked request target given good
    have sessions := Sessions.start w settings policy
    have trailed := Trailed.start w settings policy
    rcases heeded_of_given sessions trailed asked request (Command.writes_of_target target) given with
      error | ⟨time, heeded⟩
    · rw [good] at error
      cases error
    · exact ⟨time, refreshed_of_heeded trailed request target heeded⟩
  deleted := by
    intro ms _ client start keys addresses index address request parsed part acked
    exact refreshed_of_acked (Trailed.start w settings policy) request parsed part acked
  counted := by
    intro ms run client slot start raw address asked request parsed bucket given
    exact acked_of_counted (Sessions.start w settings policy) (Trailed.start w settings policy)
      (Balanced.start settings policy) run asked request parsed bucket given
  forgotten := by
    intro ms _ start raw time server move refreshed made picks cache now later told contents other
      agree
    exact refreshed.forgets made picks told agree
  shown := by
    intro ms more _ start raw time server move refreshed made picks cache contents before now later
      executes earlier told asked heard value after receives
    have lt := (List.getElem?_eq_some_iff.mp made).1
    have done : (before ++ now).filterMap Cache.Happening.command? =
        Proxy.told w (Proxy.start settings policy) ((ms ++ more).take (time + 1)) server := by
      rw [List.filterMap_append, earlier, told, List.take_append_of_le_length lt, told_take_succ made]
    obtain ⟨place, given⟩ := executes.answered_of_later done (Numbered.start settings policy)
      (Tidy.start settings policy) (Nat.lt_of_lt_of_le lt after) receives
    refine ⟨place, fun other agree => ?_⟩
    rw [← refreshed.forgets made picks told agree, ← Cache.Server.after_append]
    exact given
  kept := by
    intro ms _ start raw time server move refreshed made cache contents key ne
    refine Cache.Server.after_of_other fun command hm => ?_
    rw [refreshed.own made hm]
    exact ne.symm

theorem stale_under_other_spelling :
    let w : World :=
      { pool := fun _ => { pick := fun _ _ => some 0, live := fun _ => [0] }, draw := fun _ => 0 }
    let key := ascii "b:k"
    let spelling := ascii ":b:k"
    let events : List Event :=
      [.command 7 (.get key), .cacheData 0 (ascii "$-1\r\n"),
        .storeData 0 ([0, 0, 0, 8, 10, 10, 5, 10, 3] ++ ascii "old"), .cacheData 0 (ascii "+OK\r\n"),
        .command 7 (.set spelling (ascii "new")),
        .storeData 0 ([0, 0, 0, 8, 10, 10, 5, 10, 3] ++ ascii "old"), .storeData 0 [0, 0, 0, 1, 12],
        .cacheData 0 (ascii "+OK\r\n"), .command 7 (.get key),
        .cacheData 0 (ascii "$3\r\nold\r\n")]
    let outbox := ((start {} {}).run w events).outbox
    let told := (outbox.filterMap (Action.toCache? 0)).map Prod.snd
    Key.split key = Key.split spelling ∧ (Address.parse key).toOption.any Address.hasBucket ∧
      (Cache.Server.keeping.answers (fun _ => none) (told.map .told)).map Resp.Value.encode =
        [ascii "$-1\r\n", ascii "+OK\r\n", ascii "+OK\r\n", ascii "$3\r\nold\r\n"] ∧
      (repliesTo 7 outbox).map (fun reply => reply.2.map Resp.Value.encode) =
        [some (ascii "$3\r\nold\r\n"), some (ascii "+OK\r\n"), some (ascii "$3\r\nold\r\n")] := by
  decide +kernel

end Proxy

end ReadThrough
