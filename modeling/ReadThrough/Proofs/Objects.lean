import ReadThrough.Proofs.Addressing

namespace ReadThrough

theorem Text.utf8_inj {text other : String} : utf8 text = utf8 other ↔ text = other := by
  refine ⟨fun same => ?_, congrArg utf8⟩
  rw [← String.toByteArray_inj, ← String.ofList_toList (s := text), ← String.ofList_toList (s := other),
    String.toByteArray_ofList, String.toByteArray_ofList]
  exact congrArg List.toByteArray same

def Key.Gains (ns : Bytes) (key other : Key) : Prop :=
  key.ns = none ∧ other = { key with ns := some ns }

namespace Store

def RequestKind.location (settings : Settings) (key : Key) (kind : RequestKind) : Location :=
  match kind with
  | .get | .put | .delete => ⟨key.ns, key.bucket, some key.name⟩
  | .setUpdate | .setFetch =>
      ⟨some (Request.setBucketType settings key), key.bucket, some key.name⟩
  | .counterFetch | .counterUpdate => ⟨none, key.bucket, some key.name⟩

inductive RequestKind.Shares (settings : Settings) (key other : Key) : RequestKind → Prop where
  | set {kind : RequestKind} : kind = .setUpdate ∨ kind = .setFetch →
      Key.Gains (Text.utf8 settings.setBucketType) key other ∨
        Key.Gains (Text.utf8 settings.setBucketType) other key →
      Shares settings key other kind
  | counter : other = { key with ns := other.ns } → Shares settings key other .counterUpdate

section Location

variable {settings : Settings} {key other : Key} {kind : RequestKind} {errand : Errand}
  {request : Request} {limit : Nat}

theorem Errand.location_of_request (h : errand.request settings key = .ok request) :
    request.kind = errand.kind ∧ request.location = errand.kind.location settings key := by
  obtain ⟨-, rfl⟩ := Errand.request_eq_ok h
  cases errand <;> exact ⟨rfl, rfl⟩

theorem Errand.locates (h : errand.request settings key = .ok request)
    (fits : request.checkSize limit = .ok ()) :
    Locates errand.kind request.encode (errand.kind.location settings key) := by
  obtain ⟨kind, location⟩ := location_of_request h
  have located := locates_of_checkSize fits
  rwa [kind, location] at located

theorem RequestKind.resolve_location_set (set : kind = .setUpdate ∨ kind = .setFetch) :
    (kind.location settings key).resolve = (RequestKind.delete.location settings key).resolve ↔
      key.ns ≠ none ∨ settings.setBucketType = "default" := by
  have default : Key.defaultNamespace = Text.utf8 "default" := by decide
  obtain ⟨ns, bucket, name⟩ := key
  rcases set with rfl | rfl <;> cases ns <;>
    simp [location, Location.resolve, Request.setBucketType, default, Text.utf8_inj]

theorem setBucketType_of_gains
    (gains : Key.Gains (Text.utf8 settings.setBucketType) key other) :
    Request.setBucketType settings key = Request.setBucketType settings other := by
  obtain ⟨none, rfl⟩ := gains
  rw [Request.setBucketType, none]
  rfl

theorem gains_of_setBucketType {ns ns' : Option Bytes} {bucket name : Bytes} (ne : ns ≠ ns')
    (same : Request.setBucketType settings ⟨ns, bucket, name⟩ =
      Request.setBucketType settings ⟨ns', bucket, name⟩) :
    Key.Gains (Text.utf8 settings.setBucketType) ⟨ns, bucket, name⟩ ⟨ns', bucket, name⟩ ∨
      Key.Gains (Text.utf8 settings.setBucketType) ⟨ns', bucket, name⟩ ⟨ns, bucket, name⟩ := by
  cases ns with
  | none =>
      cases ns' with
      | none => exact absurd rfl ne
      | some part => exact Or.inl ⟨rfl, congrArg (Key.mk · bucket name) (congrArg some same.symm)⟩
  | some part =>
      cases ns' with
      | none => exact Or.inr ⟨rfl, congrArg (Key.mk · bucket name) (congrArg some same)⟩
      | some part' => exact absurd (congrArg some same) ne

theorem RequestKind.shares_of_location (ne : key ≠ other) (asked : kind ≠ .counterFetch)
    (same : kind.location settings key = kind.location settings other) :
    kind.Shares settings key other := by
  obtain ⟨ns, bucket, name⟩ := key
  obtain ⟨ns', bucket', name'⟩ := other
  have types := congrArg Location.bucketType same
  obtain ⟨rfl, rfl⟩ : bucket = bucket' ∧ name = name' := by
    have buckets := congrArg Location.bucket same
    have names := congrArg Location.name same
    cases kind <;> exact ⟨buckets, Option.some.inj names⟩
  have ns : ns ≠ ns' := fun same => ne (same ▸ rfl)
  cases kind with
  | get | put | delete => exact absurd types ns
  | setUpdate => exact .set (Or.inl rfl) (gains_of_setBucketType ns (Option.some.inj types))
  | setFetch => exact .set (Or.inr rfl) (gains_of_setBucketType ns (Option.some.inj types))
  | counterFetch => exact absurd rfl asked
  | counterUpdate => exact .counter rfl

theorem RequestKind.Shares.differ (h : kind.Shares settings key other) :
    other = { key with ns := other.ns } := by
  cases h with
  | set _ gains => rcases gains with ⟨-, rfl⟩ | ⟨-, rfl⟩ <;> rfl
  | counter same => exact same

theorem RequestKind.Shares.body_eq (h : errand.kind.Shares settings key other) :
    errand.body settings other = errand.body settings key := by
  generalize same : errand.kind = kind at h
  cases h with
  | set set gains =>
      have types : Request.setBucketType settings other = Request.setBucketType settings key :=
        gains.elim (fun gains => (setBucketType_of_gains gains).symm) setBucketType_of_gains
      cases errand <;> simp only [Errand.body, types]
  | counter => cases errand <;> first | rfl | cases same

theorem Errand.request_of_hasBucket (bucket : key.hasBucket = true) : errand.request settings key =
    .ok { key, quorum := settings.quorum, body := errand.body settings key } :=
  congrArg (Except.map _) (if_pos bucket)

theorem Errand.encode_of_shares (shares : errand.kind.Shares settings key other)
    (h : errand.request settings key = .ok request) :
    ∃ request', errand.request settings other = .ok request' ∧ request'.encode = request.encode := by
  obtain ⟨bucket, rfl⟩ := request_eq_ok h
  have bucket' : other.hasBucket = true := by rw [shares.differ]; exact bucket
  refine ⟨_, request_of_hasBucket bucket', ?_⟩
  rw [shares.body_eq, shares.differ]
  cases errand with
  | get | put | delete =>
      cases shares with
      | set set => rcases set with set | set <;> cases set
  | setUpdate action => cases action <;> rfl
  | setReplace | setFetch | counterUpdate => rfl

end Location

end Store

namespace Proxy

open Store (Errand Locates RequestKind Request)

theorem locates_of_sending {w : World} {settings : Settings} {policy : BucketPolicy} {ms : List Move}
    {id : Nat} {sending : Sending}
    (hm : sending ∈ sendings w (history w (start settings policy) ms) id) :
    ∃ begun command root raw errand,
      Planned w (history w (start settings policy) ms) begun command root ∧
      Stems w (history w (start settings policy) ms) begun id ∧
      command.Causes settings raw errand sending.request ∧
      sending.request.checkSize settings.maxFrameSize = .ok () ∧
      Locates errand.kind (Action.store sending.server id sending.request).bytes
        (errand.kind.location settings sending.request.key) := by
  have none : Measured settings.maxFrameSize (start settings policy) := fun id operation ho => by
    cases ho
  obtain ⟨begun, command, root, raw, errand, planned, stems, causes⟩ :=
    causes_of_sending (Trailed.start w settings policy) hm
  have fits := checkSize_of_sending none hm
  exact ⟨begun, command, root, raw, errand, planned, stems, causes, fits,
    Errand.locates causes.composed fits⟩

structure Located (w : World) (p : Proxy) (events : List Event) : Prop
    extends Unrolled w p events where
  sent : ∀ ms, ms <+: course w p events → ∀ id, ∀ sending ∈ sendings w (history w p ms) id,
    ∃ start command root raw errand, Planned w (history w p ms) start command root ∧
      Stems w (history w p ms) start id ∧ command.Causes p.settings raw errand sending.request ∧
      Locates errand.kind (Action.store sending.server id sending.request).bytes
        (errand.kind.location p.settings sending.request.key)
  value : ∀ (key : Key) (kind : RequestKind), kind = .get ∨ kind = .put →
    kind.location p.settings key = RequestKind.delete.location p.settings key
  set : ∀ (key : Key) (kind : RequestKind), kind = .setUpdate ∨ kind = .setFetch →
    (kind.location p.settings key).bucket = (RequestKind.delete.location p.settings key).bucket ∧
      (kind.location p.settings key).name = (RequestKind.delete.location p.settings key).name ∧
      ((kind.location p.settings key).resolve =
          (RequestKind.delete.location p.settings key).resolve ↔
        key.ns ≠ none ∨ p.settings.setBucketType = "default")

theorem located_run (w : World) (settings : Settings) (policy : BucketPolicy)
    (events : List Event) : Located w (start settings policy) events := by
  refine ⟨unrolled_of_tidy w (Tidy.start settings policy) events, ?_, ?_, ?_⟩
  · intro ms run id sending hm
    obtain ⟨begun, command, root, raw, errand, planned, stems, causes, -, locates⟩ :=
      locates_of_sending hm
    exact ⟨begun, command, root, raw, errand, planned, stems, causes, locates⟩
  · rintro key kind (rfl | rfl) <;> rfl
  · intro key kind set
    refine ⟨?_, ?_, RequestKind.resolve_location_set set⟩ <;> rcases set with rfl | rfl <;> rfl

theorem set_outlives_deletion :
    let w : World :=
      { pool := fun _ => { pick := fun _ _ => some 0, live := fun _ => [0] }, draw := fun _ => 0 }
    let key := ascii "b:s"
    let events : List Event :=
      [.command 7 (.sadd key [ascii "m"]), .storeData 0 [0, 0, 0, 1, 83], .command 7 (.del [key]),
        .storeData 0 [0, 0, 0, 1, 14]]
    let outbox := ((start {} {}).run w events).outbox
    (outbox.filterMap fun action => (action.toStore? 0).map fun sent =>
        (sent.2.kind, (sent.2.kind.locates sent.2.payload).toOption.map (·.resolve))) =
      [(.setUpdate, some ⟨some (ascii "sets"), ascii "b", some (ascii "s")⟩),
        (.delete, some ⟨some (ascii "default"), ascii "b", some (ascii "s")⟩)] ∧
      (repliesTo 7 outbox).map (fun reply => reply.2.map Resp.Value.encode) =
        [some (ascii ":1\r\n"), some (ascii ":1\r\n")] := by
  decide +kernel

structure Separated (w : World) (p : Proxy) (events : List Event) : Prop
    extends Unrolled w p events where
  sent : ∀ ms, ms <+: course w p events → ∀ id, ∀ sending ∈ sendings w (history w p ms) id,
    ∃ start command root raw errand, Planned w (history w p ms) start command root ∧
      Stems w (history w p ms) start id ∧ command.Causes p.settings raw errand sending.request ∧
      sending.request.checkSize p.settings.maxFrameSize = .ok ()
  apart : ∀ (errand errand' : Errand) (key other : Key) (request request' : Request) (limit : Nat),
    key ≠ other → errand.request p.settings key = .ok request →
    errand'.request p.settings other = .ok request' → request.checkSize limit = .ok () →
    request'.checkSize limit = .ok () → request.encode = request'.encode →
    errand.kind.Shares p.settings key other
  shared : ∀ (errand : Errand) (key other : Key) (request : Request),
    errand.kind.Shares p.settings key other → errand.request p.settings key = .ok request →
    ∃ request', errand.request p.settings other = .ok request' ∧ request'.encode = request.encode

theorem separated_run (w : World) (settings : Settings) (policy : BucketPolicy)
    (events : List Event) : Separated w (start settings policy) events := by
  refine ⟨unrolled_of_tidy w (Tidy.start settings policy) events, ?_, ?_, ?_⟩
  · intro ms run id sending hm
    obtain ⟨begun, command, root, raw, errand, planned, stems, causes, fits, -⟩ :=
      locates_of_sending hm
    exact ⟨begun, command, root, raw, errand, planned, stems, causes, fits⟩
  · intro errand errand' key other request request' limit ne composed composed' fits fits' same
    have located := Errand.locates composed fits
    obtain ⟨kinds, locations⟩ := located.unique (same ▸ Errand.locates composed' fits')
    refine RequestKind.shares_of_location ne ?_ (kinds ▸ locations)
    cases errand <;> simp [Errand.kind]
  · intro errand key other request shares composed
    exact Errand.encode_of_shares shares composed

theorem counter_without_namespace :
    let w : World :=
      { pool := fun _ => { pick := fun _ _ => some 0, live := fun _ => [0] }, draw := fun _ => 0 }
    let sent (key : String) :=
      ((start {} {}).run w [.command 7 (.incr (ascii key) 1)]).outbox.map Action.bytes
    Key.split (ascii "n1:b:k") = .ok ⟨some (ascii "n1"), ascii "b", ascii "k"⟩ ∧
      Key.split (ascii "n2:b:k") = .ok ⟨some (ascii "n2"), ascii "b", ascii "k"⟩ ∧
      sent "n1:b:k" = sent "n2:b:k" ∧ (sent "n1:b:k").length = 1 := by
  decide +kernel

end Proxy

end ReadThrough
