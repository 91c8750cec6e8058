import Mathlib.Data.Finset.Card
import Mathlib.Data.List.Dedup
import ReadThrough.Proofs.CacheServers
import ReadThrough.Proofs.Framing
import ReadThrough.Proofs.MemberSets
import ReadThrough.Proofs.Occurrences
import ReadThrough.Proxy.CacheSide

namespace ReadThrough

inductive Telling : SetQuery → Reply → Prop
  | members {items : List Resp.Value} : items ≠ [] → Telling .members (.array items)
  | contains {member : Bytes} {n : Int64} : 0 < n → Telling (.contains member) (.integer n)
  | card {n : Int64} : 0 < n → Telling .card (.integer n)

inductive SameAnswer : Reply → Reply → Prop
  | same {answer : Reply} : SameAnswer answer answer
  | reordered {items items' : List Resp.Value} : items.Perm items' →
      SameAnswer (.array items) (.array items')

section Answers

variable {members held : List Bytes} {query : SetQuery}

theorem toInt_count {n : Nat} (few : n ≤ 1048574) : (Int64.ofNat n).toInt = n :=
  Int64.toInt_ofNat_of_lt (Nat.lt_of_le_of_lt few (by decide))

theorem zero_iff {n : Int64} (h : 0 ≤ n.toInt) : (n == 0) = true ↔ ¬ 0 < n := by
  rw [beq_iff_eq, ← Int64.toInt_inj, Int64.lt_iff_toInt_lt]
  have zero : (0 : Int64).toInt = 0 := by decide
  omega

theorem isMiss_answer_iff (few : members.length ≤ 1048574) :
    Cache.isMiss query (query.answer members) = true ↔ ¬ Telling query (query.answer members) := by
  cases query with
  | members =>
      change (members.map Resp.Value.bulk).isEmpty = true ↔ _
      rw [List.isEmpty_iff]
      constructor
      · rintro none ⟨some⟩
        exact some none
      · intro silent
        exact not_not.mp fun some => silent (.members some)
  | contains member =>
      have zero : 0 ≤ (if members.contains member then (1 : Int64) else 0).toInt := by
        split <;> decide
      refine (zero_iff zero).trans (not_congr ⟨.contains, fun telling => ?_⟩)
      cases telling with
      | contains positive => exact positive
  | card =>
      have zero : 0 ≤ (Int64.ofNat members.length).toInt := by
        rw [toInt_count few]
        exact Int.natCast_nonneg _
      refine (zero_iff zero).trans (not_congr ⟨.card, fun telling => ?_⟩)
      cases telling with
      | card positive => exact positive

theorem sameAnswer_of_perm (perm : held.Perm members) (query : SetQuery) :
    SameAnswer (query.answer held) (query.answer members) := by
  cases query with
  | members => exact .reordered (perm.map _)
  | contains member =>
      have same : held.contains member = members.contains member := perm.contains_eq
      rw [SetQuery.answer, SetQuery.answer, same]
      exact .same
  | card =>
      rw [SetQuery.answer, SetQuery.answer, perm.length_eq]
      exact .same

theorem SameAnswer.telling_iff {answer answer' : Reply} (h : SameAnswer answer answer') :
    Telling query answer ↔ Telling query answer' := by
  cases h with
  | same => rfl
  | reordered perm =>
      constructor
      · rintro ⟨some⟩
        exact .members fun none => some (List.perm_nil.mp (none ▸ perm))
      · rintro ⟨some⟩
        exact .members fun none => some (List.nil_perm.mp (none ▸ perm))

theorem parse_members (few : members.length ≤ 1048574)
    (short : ∀ m ∈ members, (m.length : Int) ≤ Resp.maxBulk.toInt) (rest : Bytes) :
    Resp.parse ((SetQuery.members.answer members).encode ++ rest) =
      .complete (.array (members.map .bulk)) rest := by
  have bound : (members.length : Int) ≤ Resp.maxElements.toInt :=
    Int.le_trans (Int.ofNat_le.mpr few) (by decide)
  have read := Resp.parse_encodeWords bound short rest
  rwa [Resp.encodeWords_eq] at read

theorem length_distinct (source : List Bytes) :
    (Members.distinct source).length = source.toFinset.card := by
  have same : (Members.distinct source).toFinset = source.toFinset := by
    ext m
    rw [List.mem_toFinset, List.mem_toFinset, Members.mem_distinct]
  rw [← same, List.toFinset_card_of_nodup (Members.nodup_distinct source)]

end Answers

namespace Cache

/-- What a cache server makes of sets: which members a copy holds, or what stands in for one where
there is none, and how they are told. -/
structure Server.KeepsSets (cache : Server) (holds : Option cache.Copy → List Bytes → Prop) :
    Prop where
  absent : holds none []
  added : ∀ key members, members ≠ [] → members.Nodup →
    ∃ held, held.Perm members ∧ holds (cache.exec (.sadd key members) none) held
  expiring : ∀ key ttl copy held, ttl ≠ 0 → holds copy held →
    holds (cache.exec (.pexpire key ttl) copy) held
  listed : ∀ key copy held, holds copy held →
    cache.answer (.smembers key) copy = .array (held.map .bulk)
  contained : ∀ key member copy held, holds copy held →
    cache.answer (.sismember key member) copy = .integer (if member ∈ held then 1 else 0)
  counted : ∀ key copy held, holds copy held →
    cache.answer (.scard key) copy = .integer (Int64.ofNat held.length)

inductive Populated (key : Bytes) (members : List Bytes) : Option UInt64 → List Bytes → Prop
  | lasting {adds : Bytes} :
      (∀ rest, Resp.parse (adds ++ rest) =
        .complete (.array ((ascii "sadd" :: key :: members).map .bulk)) rest) →
      Populated key members none [adds]
  | expiring {ttl : UInt64} {adds expires : Bytes} :
      (∀ rest, Resp.parse (adds ++ rest) =
        .complete (.array ((ascii "sadd" :: key :: members).map .bulk)) rest) →
      (∀ rest, Resp.parse (expires ++ rest) =
        .complete (.array ([ascii "pexpire", key, Decimal.ofNat ttl.toNat].map .bulk)) rest) →
      Populated key members (some ttl) [adds, expires]

section Copies

variable {cache : Server} {holds : Option cache.Copy → List Bytes → Prop} {key : Bytes}
  {members held : List Bytes} {ttl : Option UInt64} {contents : cache.Contents}
  {copy : Option cache.Copy}

theorem Server.KeepsSets.answer_lookup (laws : cache.KeepsSets holds) (holding : holds copy held)
    (address : Address) (query : SetQuery) :
    cache.answer (Proxy.Read.set address (.query query)).lookup copy = query.answer held := by
  cases query with
  | members => exact laws.listed _ _ _ holding
  | contains member =>
      rw [SetQuery.answer, List.contains_eq_mem]
      refine (laws.contained _ _ _ _ holding).trans (congrArg Resp.Value.integer ?_)
      simp only [decide_eq_true_eq]
  | card => exact laws.counted _ _ _ holding

theorem populateSet_of_ne_nil (filled : members ≠ []) :
    populateSet key members (ttl.map UInt64.toNat) =
      .sadd key members :: (ttl.map fun t => Command.pexpire key t.toNat).toList := by
  rw [populateSet, if_neg filled, Option.map_map]
  rfl

theorem after_populateSet (filled : members ≠ []) (fresh : contents key = none) :
    cache.after contents ((populateSet key members (ttl.map UInt64.toNat)).map .told) key =
      (ttl.map fun t => Command.pexpire key t.toNat).elim
        (cache.exec (.sadd key members) none)
        fun expire => cache.exec expire (cache.exec (.sadd key members) none) := by
  have added : cache.step contents (.told (.sadd key members)) key =
      cache.exec (.sadd key members) none :=
    (Function.update_self ..).trans (congrArg _ fresh)
  rw [populateSet_of_ne_nil filled]
  cases ttl with
  | none => exact added
  | some t => exact (Function.update_self ..).trans (congrArg _ added)

theorem toNat_ne_zero {t : UInt64} (alive : some t ≠ some 0) : t.toNat ≠ 0 :=
  fun zero => alive (congrArg _ (UInt64.toNat_inj.mp zero))

theorem Server.KeepsSets.holds_populated (laws : cache.KeepsSets holds) (once : members.Nodup)
    (alive : ttl ≠ some 0) (fresh : contents key = none) : ∃ held, held.Perm members ∧
      holds (cache.after contents
        ((populateSet key members (ttl.map UInt64.toNat)).map .told) key) held := by
  by_cases none : members = []
  · subst none
    refine ⟨[], .refl _, ?_⟩
    change holds (contents key) []
    exact fresh.symm ▸ laws.absent
  · obtain ⟨held, perm, holding⟩ := laws.added key members none once
    refine ⟨held, perm, ?_⟩
    rw [after_populateSet none fresh]
    cases ttl with
    | none => exact holding
    | some t => exact laws.expiring _ _ _ _ (toNat_ne_zero alive) holding

theorem keepsSets_keeping : Server.keeping.KeepsSets fun copy held =>
    copy = if held = [] then none else some (.members held) where
  absent := rfl
  added key members some _ := ⟨members, .refl _, (if_neg some).symm⟩
  expiring key ttl copy held positive holding := (if_neg positive).trans holding
  listed key copy held holding := by
    subst holding
    split
    · next none => rw [none]; rfl
    · rfl
  contained key member copy held holding := by
    subst holding
    split
    · next none => rw [none, if_neg List.not_mem_nil]; rfl
    · rfl
  counted key copy held holding := by
    subst holding
    split
    · next none => rw [none]; rfl
    · rfl

theorem keeping_populated {contents : Server.keeping.Contents} (alive : ttl ≠ some 0)
    (fresh : contents key = none) : Server.keeping.after contents
      ((populateSet key members (ttl.map UInt64.toNat)).map .told) key =
        if members = [] then none else some (.members members) := by
  split
  · next none => rw [none]; exact fresh
  · next filled =>
      rw [after_populateSet filled fresh]
      cases ttl with
      | none => rfl
      | some t => exact if_neg (toNat_ne_zero alive)

theorem parse_encode {command : Command}
    (few : (command.words.length : Int) ≤ Resp.maxElements.toInt)
    (short : ∀ word ∈ command.words, (word.length : Int) ≤ Resp.maxBulk.toInt) (rest : Bytes) :
    Resp.parse (command.encode ++ rest) = .complete (.array (command.words.map .bulk)) rest :=
  Resp.parse_encodeWords few short rest

theorem length_ofNat_le (t : UInt64) :
    ((Decimal.ofNat t.toNat).length : Int) ≤ Resp.maxBulk.toInt := by
  have digits : (Nat.toDigits 10 t.toNat).length ≤ 20 :=
    (Nat.length_toDigits_le_iff (by decide) (by decide)).mpr (Nat.lt_trans t.toNat_lt (by decide))
  have bound : (20 : Int) ≤ Resp.maxBulk.toInt := by decide
  rw [Decimal.ofNat, List.length_map]
  omega

theorem populated (filled : members ≠ []) (few : members.length ≤ 1048574)
    (named : (key.length : Int) ≤ Resp.maxBulk.toInt)
    (short : ∀ m ∈ members, (m.length : Int) ≤ Resp.maxBulk.toInt) (ttl : Option UInt64) :
    Populated key members ttl
      ((populateSet key members (ttl.map UInt64.toNat)).map Command.encode) := by
  have limit : Resp.maxElements.toInt = 1048576 := by decide
  have adds : ∀ rest, Resp.parse ((Command.sadd key members).encode ++ rest) =
      .complete (.array ((ascii "sadd" :: key :: members).map .bulk)) rest := by
    refine parse_encode ?_ ?_
    · simp only [Command.words, List.length_cons, limit]
      omega
    · exact List.forall_mem_cons.mpr ⟨by decide, List.forall_mem_cons.mpr ⟨named, short⟩⟩
  rw [populateSet_of_ne_nil filled]
  cases ttl with
  | none => exact .lasting adds
  | some t =>
      refine .expiring adds (parse_encode ?_ ?_)
      · simp only [Command.words, List.length_cons, List.length_nil, limit]
        decide
      · refine List.forall_mem_cons.mpr ⟨by decide, List.forall_mem_cons.mpr ⟨named, ?_⟩⟩
        exact List.forall_mem_singleton.mpr (length_ofNat_le t)

end Copies

end Cache

namespace Store.Response

structure Consistent (source members : List Bytes) (address : Address) (ttl : Option UInt64) :
    Prop where
  once : members.Nodup
  same : ∀ m, m ∈ members ↔ m ∈ source
  ordered : Members.Ordered source members
  notFound : ∀ context, (set members context).isNotFound = true ↔ members = []
  listed : ∀ rest, Resp.parse ((SetQuery.members.answer members).encode ++ rest) =
    .complete (.array (members.map .bulk)) rest
  contained : ∀ m, (SetQuery.contains m).answer members = .integer (if m ∈ source then 1 else 0)
  counted : ∃ n : Int64, SetQuery.card.answer members = .integer n ∧ n.toInt = source.toFinset.card
  nothing : members = [] → Cache.populateSet address.raw members (ttl.map UInt64.toNat) = []
  commands : members ≠ [] → Cache.populateSet address.raw members (ttl.map UInt64.toNat) =
    .sadd address.raw members :: (ttl.map fun t => .pexpire address.raw t.toNat).toList
  populated : members ≠ [] → (address.raw.length : Int) ≤ Resp.maxBulk.toInt →
    Cache.Populated address.raw members ttl
      ((Cache.populateSet address.raw members (ttl.map UInt64.toNat)).map Cache.Command.encode)
  kept : ttl ≠ some 0 → ∀ (contents : Cache.Server.keeping.Contents) (query : SetQuery),
    contents address.raw = none → Cache.Server.keeping.answer
      (Proxy.Read.set address (.query query)).lookup (Cache.Server.keeping.after contents
        ((Cache.populateSet address.raw members (ttl.map UInt64.toNat)).map .told) address.raw) =
      query.answer members
  copied : ttl ≠ some 0 → ∀ (cache : Cache.Server)
    (holds : Option cache.Copy → List Bytes → Prop), cache.KeepsSets holds →
      ∀ (contents : cache.Contents) (query : SetQuery), contents address.raw = none →
        ∃ answer, cache.answer (Proxy.Read.set address (.query query)).lookup (cache.after contents
          ((Cache.populateSet address.raw members (ttl.map UInt64.toNat)).map .told) address.raw) =
            answer ∧ SameAnswer answer (query.answer members) ∧
          (Cache.isMiss query answer = true ↔ ¬ Telling query (query.answer members))

variable {source members : List Bytes} {payload : Bytes} {context : Option Bytes} {code : UInt8}
  {kind : RequestKind}

theorem exists_setValue (h : decode code payload kind = .ok (.set members context)) :
    ∃ source, Message.SetValue payload source ∧ members = Members.distinct source := by
  obtain ⟨message, read, fetched⟩ := ofSet_of_decode h
  exact ⟨_, Message.setValue_of_decode read, members_of_ofSet fetched⟩

theorem consistent_distinct (few : (Members.distinct source).length ≤ 1048574)
    (short : ∀ m ∈ source, (m.length : Int) ≤ Resp.maxBulk.toInt) (address : Address)
    (ttl : Option UInt64) : Consistent source (Members.distinct source) address ttl where
  once := Members.nodup_distinct source
  same _ := Members.mem_distinct
  ordered := Members.ordered_distinct source
  notFound _ := List.isEmpty_iff
  listed := parse_members few fun m hm => short m (Members.mem_distinct.mp hm)
  contained m := by
    have same : (m ∈ Members.distinct source) = (m ∈ source) := propext Members.mem_distinct
    simp only [SetQuery.answer, Reply.integer, List.contains_eq_mem, decide_eq_true_eq, same]
  counted := ⟨_, rfl, by rw [toInt_count few, length_distinct]⟩
  nothing none := by
    rw [none]
    rfl
  commands := Cache.populateSet_of_ne_nil
  populated filled named :=
    Cache.populated filled few named (fun m hm => short m (Members.mem_distinct.mp hm)) ttl
  kept alive _ query fresh :=
    Cache.keepsSets_keeping.answer_lookup (Cache.keeping_populated alive fresh) address query
  copied alive _ _ laws _ query fresh := by
    obtain ⟨held, perm, holding⟩ := laws.holds_populated (Members.nodup_distinct source) alive fresh
    have same := sameAnswer_of_perm perm query
    refine ⟨_, laws.answer_lookup holding address query, same, ?_⟩
    exact (isMiss_answer_iff (perm.length_eq.trans_le few)).trans (not_congr same.telling_iff)

theorem consistent (accepted : decode code payload kind = .ok (.set members context))
    (short : payload.length < Frame.maxLength) (few : members.length ≤ 1048574) (address : Address)
    (ttl : Option UInt64) : ∃ source, (∀ other, Message.SetValue payload other ↔ other = source) ∧
      Consistent source members address ttl := by
  obtain ⟨source, found, rfl⟩ := exists_setValue accepted
  refine ⟨source, fun other => ⟨fun found' => found'.unique found, fun same => same ▸ found⟩, ?_⟩
  refine consistent_distinct few (fun m hm => ?_) address ttl
  have within := found.length_le m hm
  have bound : (Frame.maxLength : Int) ≤ Resp.maxBulk.toInt := by decide
  omega

theorem consistent_of_parts :
    let address : Address := { raw := ascii "b:s", key := ⟨none, ascii "b", ascii "s"⟩ }
    let payload : Bytes := [16, 2, 26, 5, 18, 1, 97, 18, 0, 26, 3, 18, 1, 97]
    let members : List Bytes := [[97], []]
    decode Code.dtFetchResp.byte payload .setFetch = .ok (.set members none) ∧
      payload.length < Frame.maxLength ∧ members.length ≤ 1048574 ∧
      ∃ source, (∀ other, Message.SetValue payload other ↔ other = source) ∧
        Consistent source members address (some 5000) := by
  intro address payload members
  have accepted : decode Code.dtFetchResp.byte payload .setFetch = .ok (.set members none) := by
    decide +kernel
  have short : payload.length < Frame.maxLength := by decide
  have few : members.length ≤ 1048574 := by decide
  exact ⟨accepted, short, few, consistent accepted short few address (some 5000)⟩

theorem oversized_key_refused :
    let payload : Bytes := [16, 2, 26, 3, 18, 1, 109]
    let members : List Bytes := [[109]]
    let key : Bytes := List.replicate 536870913 97
    let asked : Resp.Value := .array [.bulk (ascii "SMEMBERS"), .simple key]
    decode Code.dtFetchResp.byte payload .setFetch = .ok (.set members none) ∧
      Resp.parse asked.encode = .complete asked [] ∧
      Command.ofValue asked = .ok (.smembers key) ∧
      (Cache.populateSet key members none).map (Resp.parse ·.encode) =
        [.refused (.invalidBulkLength 536870913)] := by
  intro payload members key asked
  have length : key.length = 536870913 := List.length_replicate
  have line : ¬ crlf <:+: key := by
    intro inside
    have same := List.eq_of_mem_replicate (inside.subset List.mem_cons_self)
    cases same
  have large : Resp.maxBulk.toInt < key.length := by
    rw [length]
    decide
  refine ⟨by decide +kernel, ?_, rfl, ?_⟩
  · refine Resp.parse_encode_iff.mpr (.array (by decide) ?_)
    refine List.forall_mem_cons.mpr ⟨.bulk (by decide), ?_⟩
    exact List.forall_mem_singleton.mpr (.simple line)
  · have refused : Resp.parse (Resp.encodeWords ([ascii "sadd"] ++ key :: members)) = _ :=
      Resp.parse_oversized_word (by decide) (List.forall_mem_singleton.mpr (by decide)) large
        (by rw [length]; decide)
    rw [length] at refused
    exact congrArg (fun verdict => [verdict]) refused

end Store.Response

end ReadThrough
