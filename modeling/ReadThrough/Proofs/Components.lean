import Mathlib.Data.List.DropRight
import ReadThrough.Proofs.Keys

namespace ReadThrough

theorem cut_of_not_mem {s : UInt8} {bytes : Bytes} (h : s ∉ bytes) :
    cut s bytes = (bytes, none) := by
  induction bytes with
  | nil => rfl
  | cons b rest ih =>
      obtain ⟨ne, free⟩ := not_or.mp (mt List.mem_cons.mpr h)
      simp [cut, Ne.symm ne, ih free]

namespace Key

/-- The first two separators divide a spelling; any others belong to the third component. -/
inductive Divided : Bytes → List Bytes → Prop
  | one {only : Bytes} : separator ∉ only → Divided only [only]
  | two {first second : Bytes} : separator ∉ first → separator ∉ second →
      Divided (first ++ separator :: second) [first, second]
  | three {first second third : Bytes} : separator ∉ first → separator ∉ second →
      Divided (first ++ separator :: (second ++ separator :: third)) [first, second, third]

def left (components : List Bytes) : List Bytes :=
  components.rdropWhile (· = [])

inductive Named : List Bytes → Key → Prop
  | name {name : Bytes} : Named [name] ⟨none, [], name⟩
  | bucket {bucket name : Bytes} : Named [bucket, name] ⟨none, bucket, name⟩
  | noNs {bucket name : Bytes} : Named [[], bucket, name] ⟨none, bucket, name⟩
  | ns {ns bucket name : Bytes} : ns ≠ [] → Named [ns, bucket, name] ⟨some ns, bucket, name⟩

inductive Nameless (raw : Bytes) (components : List Bytes) : Failure → Prop
  | blank : raw.all isBlank = true → Nameless raw components .emptyKey
  | nothingLeft : raw.all isBlank = false → left components = [] →
      Nameless raw components (.noKeyComponent raw)

section Split

variable {raw a b c : Bytes} {components components' : List Bytes} {key : Key} {why : Failure}

theorem exists_divided (raw : Bytes) : ∃ components, Divided raw components := by
  by_cases h : separator ∈ raw
  · obtain ⟨first, rest, rfl, free⟩ := List.eq_append_cons_of_mem h
    by_cases h' : separator ∈ rest
    · obtain ⟨second, third, rfl, free'⟩ := List.eq_append_cons_of_mem h'
      exact ⟨_, .three free free'⟩
    · exact ⟨_, .two free h'⟩
  · exact ⟨_, .one h⟩

theorem Divided.parts_eq (h : Divided raw components) :
    parts raw = (components.getD 0 [], components.getD 1 [], components.getD 2 []) := by
  cases h with
  | one free => simp [parts, cut_of_not_mem free]
  | two free free' => simp [parts, cut_append _ _ _ free, cut_of_not_mem free']
  | three free free' => simp [parts, cut_append _ _ _ free, cut_append _ _ _ free']

theorem Divided.separators (h : Divided raw components) :
    raw.count separator + 1 = components.length + (components.getD 2 []).count separator := by
  cases h with
  | one free => simp [List.count_eq_zero_of_not_mem free]
  | two free free' =>
      simp [List.count_eq_zero_of_not_mem free, List.count_eq_zero_of_not_mem free']
  | three free free' =>
      simp [List.count_eq_zero_of_not_mem free, List.count_eq_zero_of_not_mem free']
      omega

theorem Divided.length_le (h : Divided raw components) : components.length ≤ 3 := by
  cases h <;> simp

theorem Divided.unique (h : Divided raw components) (h' : Divided raw components') :
    components = components' := by
  have same := h.parts_eq.symm.trans h'.parts_eq
  have count := h.separators.symm.trans h'.separators
  have few := h.length_le
  rw [Prod.mk.injEq, Prod.mk.injEq] at same
  obtain ⟨first, second, third⟩ := same
  rw [third, Nat.add_right_cancel_iff] at count
  refine List.ext_getElem count fun i lt lt' => ?_
  rw [List.getElem_eq_getD [], List.getElem_eq_getD []]
  obtain rfl | rfl | rfl : i = 0 ∨ i = 1 ∨ i = 2 := by omega
  · exact first
  · exact second
  · exact third

theorem settle_one : settle (a, [], []) = some key ↔ Named (left [a]) key := by
  by_cases empty : a = []
  · have none : left [a] = [] := by simp [left, empty]
    rw [none, empty]
    exact ⟨nofun, nofun⟩
  · have all : left [a] = [a] := by simp [left, empty]
    have found : settle (a, [], []) = some ⟨none, [], a⟩ := by simp [settle, make, empty]
    rw [all, found, Option.some_inj]
    exact ⟨fun same => same ▸ .name, fun named => by cases named; rfl⟩

theorem settle_two : settle (a, b, []) = some key ↔ Named (left [a, b]) key := by
  by_cases empty : b = []
  · have fewer : left [a, b] = left [a] :=
      List.rdropWhile_concat_pos _ [a] b (decide_eq_true empty)
    rw [fewer, empty, settle_one]
  · have all : left [a, b] = [a, b] :=
      List.rdropWhile_concat_neg _ [a] b (by simpa using empty)
    have found : settle (a, b, []) = some ⟨none, a, b⟩ := by simp [settle, make, empty]
    rw [all, found, Option.some_inj]
    exact ⟨fun same => same ▸ .bucket, fun named => by cases named; rfl⟩

theorem settle_three : settle (a, b, c) = some key ↔ Named (left [a, b, c]) key := by
  by_cases empty : c = []
  · have fewer : left [a, b, c] = left [a, b] :=
      List.rdropWhile_concat_pos _ [a, b] c (decide_eq_true empty)
    rw [fewer, empty, settle_two]
  · have all : left [a, b, c] = [a, b, c] :=
      List.rdropWhile_concat_neg _ [a, b] c (by simpa using empty)
    have found : settle (a, b, c) = some (make (some a) b c) := by simp [settle, empty]
    rw [all, found, Option.some_inj]
    by_cases spaceless : a = []
    · subst spaceless
      refine ⟨fun same => same ▸ .noNs, fun named => ?_⟩
      cases named with
      | noNs => rfl
      | ns filled => exact absurd rfl filled
    · have spaced : make (some a) b c = ⟨some a, b, c⟩ := by simp [make, Option.filter, spaceless]
      rw [spaced]
      refine ⟨fun same => same ▸ .ns spaceless, fun named => ?_⟩
      cases named with
      | noNs => exact absurd rfl spaceless
      | ns => rfl

theorem Divided.settle_iff (h : Divided raw components) :
    settle (parts raw) = some key ↔ Named (left components) key := by
  rw [h.parts_eq]
  cases h with
  | one => exact settle_one
  | two => exact settle_two
  | three => exact settle_three

theorem exists_named (some : components ≠ []) (few : components.length ≤ 3) :
    ∃ key, Named components key := by
  match components with
  | [name] => exact ⟨_, .name⟩
  | [bucket, name] => exact ⟨_, .bucket⟩
  | [ns, bucket, name] =>
      by_cases spaceless : ns = []
      · subst spaceless
        exact ⟨_, .noNs⟩
      · exact ⟨_, .ns spaceless⟩

theorem Divided.settle_eq_none_iff (h : Divided raw components) :
    settle (parts raw) = none ↔ left components = [] := by
  rw [Option.eq_none_iff_forall_ne_some]
  constructor
  · intro none
    by_contra some
    have few : (left components).length ≤ 3 :=
      (List.rdropWhile_prefix _ components).length_le.trans h.length_le
    obtain ⟨key, named⟩ := exists_named some few
    exact none key (h.settle_iff.mpr named)
  · intro nothing key found
    rw [h.settle_iff, nothing] at found
    cases found

theorem Divided.split_eq_ok_iff (h : Divided raw components) :
    split raw = .ok key ↔ raw.all isBlank = false ∧ Named (left components) key := by
  rw [split, ← h.settle_iff]
  cases raw.all isBlank with
  | true => simp
  | false => cases settle (parts raw) <;> simp

theorem Divided.split_eq_error_iff (h : Divided raw components) :
    split raw = .error why ↔ Nameless raw components why := by
  constructor
  · intro failed
    rw [split] at failed
    split at failed
    · next blank =>
        cases failed
        exact .blank blank
    · next filled =>
        split at failed
        · cases failed
        · next none =>
            cases failed
            exact .nothingLeft (Bool.eq_false_iff.mpr filled) (h.settle_eq_none_iff.mp none)
  · intro nameless
    cases nameless with
    | blank blank => rw [split, if_pos blank]
    | nothingLeft filled nothing =>
        rw [split, if_neg (Bool.eq_false_iff.mp filled), h.settle_eq_none_iff.mpr nothing]

end Split

section Spell

variable {ns : Option Bytes} {bucket name raw : Bytes} {components : List Bytes} {key : Key}

inductive Apart : Option Bytes → Bytes → Prop
  | bare {name : Bytes} : separator ∉ name → Apart none name
  | spaced {ns name : Bytes} : ns ≠ [] → separator ∉ ns → Apart (some ns) name

theorem left_of_name {before : List Bytes} (filled : name ≠ []) :
    left (before ++ [name]) = before ++ [name] :=
  List.rdropWhile_concat_neg _ before name (by simpa using filled)

theorem divided_spell (apart : Apart ns name) (has : bucket ≠ []) (free : separator ∉ bucket) :
    Divided (spell ns bucket name) (ns.toList ++ [bucket] ++ [name]) := by
  cases apart with
  | bare free' =>
      rw [show spell none bucket name = bucket ++ separator :: name from if_neg has]
      exact .two free free'
  | @spaced ns name filled free' =>
      have spelled : spell (some ns) bucket name =
          ns ++ separator :: (bucket ++ separator :: name) := by
        simp [spell, Option.filter_some, filled]
      rw [spelled]
      exact .three free' free

theorem split_spell (apart : Apart ns name) (has : bucket ≠ []) (free : separator ∉ bucket)
    (filled : name ≠ []) : split (spell ns bucket name) = .ok ⟨ns, bucket, name⟩ := by
  have divided := divided_spell apart has free
  have divides : separator ∈ spell ns bucket name := by
    have count := divided.separators
    simp only [List.length_append, List.length_singleton] at count
    exact List.count_pos_iff.mp (by omega)
  rw [divided.split_eq_ok_iff, left_of_name filled]
  refine ⟨List.all_eq_false.mpr ⟨separator, divides, by decide⟩, ?_⟩
  cases apart with
  | bare => exact .bucket
  | spaced some => exact .ns some

theorem join_of_split (h : Divided raw components) (filled : ∀ part ∈ components, part ≠ [])
    (read : split raw = .ok key) : key.join = raw := by
  obtain ⟨-, named⟩ := h.split_eq_ok_iff.mp read
  have all : left components = components := by
    refine List.rdropWhile_eq_self_iff.mpr fun some => ?_
    simpa using filled _ (List.getLast_mem some)
  rw [all] at named
  cases h with
  | one =>
      cases named
      simp [join, spell]
  | two =>
      cases named
      exact join_none (filled _ List.mem_cons_self)
  | three =>
      cases named with
      | noNs => exact absurd rfl (filled _ List.mem_cons_self)
      | ns spaced => exact join_some spaced

end Spell

structure Grammar : Prop where
  divided : ∀ raw, ∃! components, Divided raw components
  refused : ∀ raw components, Divided raw components →
    ∀ why, split raw = .error why ↔ Nameless raw components why
  malformed : ∀ raw why, split raw = .error why → why.kind = .malformed
  read : ∀ raw components, Divided raw components →
    ∀ key, split raw = .ok key ↔ raw.all isBlank = false ∧ Named (left components) key
  filled : ∀ raw key, split raw = .ok key → key.name ≠ []
  split_join : ∀ ns bucket name, name ≠ [] → bucket ≠ [] → separator ∉ bucket → Apart ns name →
    split (spell ns bucket name) = .ok ⟨ns, bucket, name⟩
  join_split : ∀ raw components, Divided raw components → (∀ part ∈ components, part ≠ []) →
    ∀ key, split raw = .ok key → key.join = raw

theorem grammar : Grammar where
  divided raw := by
    obtain ⟨components, divided⟩ := exists_divided raw
    exact ⟨components, divided, fun _ divided' => divided'.unique divided⟩
  refused _ _ divided _ := divided.split_eq_error_iff
  malformed raw why failed := by
    obtain ⟨components, divided⟩ := exists_divided raw
    cases divided.split_eq_error_iff.mp failed <;> rfl
  read _ _ divided _ := divided.split_eq_ok_iff
  filled _ _ := name_ne_nil_of_split
  split_join _ _ _ filled has free apart := split_spell apart has free filled
  join_split _ _ divided filled _ := join_of_split divided filled

example : split (ascii "ns::") = .ok ⟨none, [], ascii "ns"⟩ := by decide

end Key

end ReadThrough
