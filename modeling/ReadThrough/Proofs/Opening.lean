import ReadThrough.Proofs.Course
import ReadThrough.Proofs.Deeds.ClientSide

namespace ReadThrough.Proxy

variable {fan : Nat → Prop} {fair : Prop} (w : World) (p : Proxy)

def resumed (id : Nat) : Proxy × Hand :=
  match p.takeOperation id with
  | none => (p, [])
  | some (operation, q) => (q, [(some id, operation.duty)])

def SoundOperations (p : Proxy) : Prop :=
  ∀ id operation, p.operations.get? id = some operation → operation.Sound

theorem resumed_cases (id : Nat) :
    (p.operations.get? id = none ∧ p.resumed id = (p, [])) ∨
      ∃ operation, p.operations.get? id = some operation ∧
        p.resumed id =
          ({ p with operations := p.operations.erase id }, [(some id, operation.duty)]) := by
  unfold resumed takeOperation
  cases h : p.operations.get? id with
  | none => exact Or.inl ⟨rfl, rfl⟩
  | some operation => exact Or.inr ⟨operation, rfl, rfl⟩

theorem handles_resume {p : Proxy} (sound : SoundOperations p) {id : Nat}
    {handler : Proxy → Operation → Proxy}
    (handles : ∀ operation q, p.operations.get? id = some operation → operation.Sound →
      Handles fan fair q [(some id, operation.duty)] (handler q operation) []) :
    Handles fan fair (p.resumed id).1 (p.resumed id).2 (p.resume id handler) [] := by
  unfold resumed resume takeOperation
  cases held : p.operations.get? id with
  | none => exact .refl
  | some operation => exact handles operation _ held (sound id operation held)

theorem handles_frameHandler {operation : Operation} (sound : operation.Sound) (server id : Nat)
    {kind : Store.RequestKind} (frame : Store.Frame)
    (awaits : fair → operation.stage.awaits = some kind) :
    Handles fan fair p [(some id, operation.duty)]
      (frameHandler w server id kind frame p operation) [] := by
  unfold frameHandler
  split
  · next response decoded =>
      exact handles_storeResponse w p sound server fun given =>
        ⟨kind, awaits given, Store.Response.suits_of_decode decoded⟩
  · exact handles_failWith w p operation _

theorem handles_spend (client slot : Nat) (command : Command) (value : Reply) :
    Handles fan fair p [(none, .reply client slot)]
      ((p.spend command).reply client slot value) [] := by
  cases command with
  | set key _ =>
      unfold spend
      dsimp only
      split
      · exact Handles.number.trans (handles_reply _ _)
      · exact handles_reply _ _
  | _ => exact handles_reply _ _

theorem handles_clientCommand (positive : ∀ n, 0 < n → fan n) (client : Nat) {command : Command}
    (keys : ∀ op dest keys, command = .algebra op dest keys → fan keys.length) :
    Handles fan fair (p.reserve client).2 [(none, .reply client (p.reserve client).1)]
      (p.clientCommand w client command) [] := by
  rw [clientCommand_eq]
  dsimp only
  let q : Proxy := { (p.reserve client).2 with policy := p.policy.refresh }
  have refreshed : Alike (p.reserve client).2 q := ⟨⟨rfl, rfl, rfl, rfl, rfl, rfl, rfl⟩, rfl⟩
  have touched := Alike.touchVclock q command
  refine (Handles.of_alike refreshed rfl).trans
    ((Handles.of_alike touched (breaches_touchVclock q command)).trans ?_)
  split
  · next plan hp => exact handles_perform w _ positive client _ (fits_of_plan hp keys)
  · exact handles_spend _ _ _ command _

namespace Move

def subject? (p : Proxy) : Move → Option Nat
  | .cacheAnswer server _ =>
      match (p.cacheLink server).pending with
      | .operation id :: _ => some id
      | _ => none
  | .cacheSilence (.operation id) => some id
  | .storeAnswer server _ => (p.storeLink server).pending.head?.map Prod.fst
  | .storeReset id _ | .storeSilence _ id _ => some id
  | _ => none

def prepare (p : Proxy) : Move → Proxy
  | .hold client rest => p.setClient client { p.client client with inbound := ⟨rest⟩ }
  | .request client _ => (p.reserve client).2
  | .hangUp client => p.clientClosed client
  | .cacheHold server rest => p.setCache server { p.cacheLink server with inbound := ⟨rest⟩ }
  | .cacheAnswer server _ =>
      match (p.cacheLink server).pending with
      | [] => p
      | _ :: pending => p.setCache server { p.cacheLink server with pending }
  | .cacheProtest server => p.emit (.closeCache server)
  | .cacheLoss server => { p with caches := p.caches.erase server }
  | .storeHold server rest => p.setStore server { p.storeLink server with inbound := ⟨rest⟩ }
  | .storeAnswer server _ =>
      match (p.storeLink server).pending with
      | [] => p
      | _ :: pending => p.setStore server { p.storeLink server with pending }
  | .storeProtest server => p.emit (.closeStore server)
  | .storeLoss server => p.eraseStore server
  | .policy newest => { p with policy := p.policy.deliver newest }
  | .drain => p.drain.2
  | .cacheSilence _ | .storeReset .. | .storeSilence .. => p

def incoming (p : Proxy) : Move → Hand
  | .request client _ => [(none, .reply client (p.reserve client).1)]
  | _ => []

def opening (p : Proxy) (move : Move) : Proxy × Hand :=
  match move.subject? p with
  | some id => (move.prepare p).resumed id
  | none => (move.prepare p, move.incoming p)

theorem opening_cases (move : Move) : move.opening p = (move.prepare p, move.incoming p) ∨
    ∃ id, move.subject? p = some id ∧ move.incoming p = [] ∧
      move.opening p = (move.prepare p).resumed id := by
  unfold opening
  cases hs : move.subject? p with
  | none => exact Or.inl rfl
  | some id =>
      refine Or.inr ⟨id, rfl, ?_, rfl⟩
      cases move with
      | request => cases hs
      | _ => rfl

theorem opening_fst (move : Move) :
    ∃ operations, (move.opening p).1 = { move.prepare p with operations } := by
  rcases opening_cases p move with h | ⟨id, -, -, h⟩
  · exact ⟨(move.prepare p).operations, by rw [h]⟩
  · rcases (move.prepare p).resumed_cases id with ⟨-, hr⟩ | ⟨operation, -, hr⟩
    · exact ⟨(move.prepare p).operations, by rw [h, hr]⟩
    · exact ⟨(move.prepare p).operations.erase id, by rw [h, hr]⟩

def answers? (p : Proxy) : Move → Option (Nat × Option Store.RequestKind)
  | .cacheAnswer server _ =>
      match (p.cacheLink server).pending with
      | .operation id :: _ => some (id, none)
      | _ => none
  | .cacheSilence (.operation id) => some (id, none)
  | .storeAnswer server _ =>
      (p.storeLink server).pending.head?.map fun entry => (entry.1, some entry.2)
  | _ => none

def Fits (fan : Nat → Prop) : Move → Prop
  | .request _ (.ok (.algebra _ _ keys)) => fan keys.length
  | _ => True

end Move

theorem handles_apply (positive : ∀ n, 0 < n → fan n) {p : Proxy} (sound : SoundOperations p)
    {move : Move} (fits : move.Fits fan)
    (waits : fair → ∀ {id kind operation}, move.answers? p = some (id, kind) →
      p.operations.get? id = some operation → operation.stage.awaits = kind) :
    Handles fan fair (move.opening p).1 (move.opening p).2 (move.apply w p) [] := by
  cases move with
  | request client content =>
      cases content with
      | error why => exact handles_reply _ _
      | ok command =>
          refine handles_clientCommand w p positive client ?_
          rintro op dest keys rfl
          exact fits
  | cacheAnswer server value =>
      simp only [Move.opening, Move.subject?, Move.prepare, Move.incoming, Move.apply]
      cases hp : (p.cacheLink server).pending with
      | nil => exact .refl
      | cons entry pending =>
          cases entry with
          | sideEffect => exact .refl
          | operation id =>
              have same : SoundOperations (p.setCache server { p.cacheLink server with pending }) :=
                sound
              have answers : (Move.cacheAnswer server value).answers? p = some (id, none) := by
                simp only [Move.answers?, hp]
              exact handles_resume same fun operation q held _ =>
                handles_cacheReply w q value fun given =>
                  Stage.awaits_eq_none.mp (waits given answers held)
  | cacheSilence entry =>
      cases entry with
      | sideEffect => exact .refl
      | operation id =>
          exact handles_resume sound fun operation q held _ =>
            handles_cacheMiss w q fun given => Stage.awaits_eq_none.mp (waits given rfl held)
  | storeAnswer server frame =>
      simp only [Move.opening, Move.subject?, Move.prepare, Move.incoming, Move.apply]
      cases hp : (p.storeLink server).pending with
      | nil => exact .refl
      | cons entry pending =>
          obtain ⟨id, kind⟩ := entry
          have same : SoundOperations (p.setStore server { p.storeLink server with pending }) :=
            sound
          have answers : (Move.storeAnswer server frame).answers? p = some (id, some kind) := by
            simp only [Move.answers?, hp, List.head?_cons, Option.map_some]
          exact handles_resume same fun operation q held sound =>
            handles_frameHandler w q sound server id frame fun given => waits given answers held
  | storeReset id why =>
      exact handles_resume sound fun operation q _ _ => handles_failWith w q operation _
  | storeSilence server id reason =>
      exact handles_resume sound fun operation q _ sound =>
        handles_retryOrFail w q sound server reason
  | hold | hangUp | cacheHold | cacheProtest | cacheLoss | storeHold | storeProtest | storeLoss
  | policy | drain => exact .refl

theorem deeds_apply (positive : ∀ n, 0 < n → fan n) {p : Proxy} (sound : SoundOperations p)
    {move : Move} (fits : move.Fits fan) :
    Deeds fan (move.opening p).1 (move.opening p).2 (move.apply w p) [] :=
  (handles_apply w positive sound fits False.elim).deeds

theorem Move.fits_true (move : Move) : move.Fits fun _ => True := by
  unfold Move.Fits
  split <;> trivial

theorem deeds_of_apply {p : Proxy} (sound : SoundOperations p) (move : Move) :
    Deeds (fun _ => True) (move.opening p).1 (move.opening p).2 (move.apply w p) [] :=
  deeds_apply w (fun _ _ => trivial) sound move.fits_true

end ReadThrough.Proxy
