import Mathlib.Algebra.BigOperators.Group.List.Basic
import Mathlib.Algebra.Ring.Nat
import Mathlib.Data.Finset.Card
import Mathlib.Data.List.Induction
import ReadThrough.Policy
import ReadThrough.Proofs.Entries

namespace ReadThrough

namespace BucketPolicy

abbrev Setting := (Bytes × Bytes) × Ttl

def setAll (settings : List Setting) : BucketPolicy :=
  settings.foldl (fun policy setting => policy.setTtl setting.1.1 setting.1.2 setting.2) {}

def LastSet (settings : List Setting) (place : Bytes × Bytes) (ttl : Ttl) : Prop :=
  ∃ before behind, settings = before ++ (place, ttl) :: behind ∧ place ∉ behind.map Prod.fst

def place (key : Key) : Bytes × Bytes :=
  (key.ns.getD (ascii "default"), key.bucket)

abbrev Nested := Table Bytes (Table Bytes Ttl)

namespace Nested

def setTtl (nested : Nested) (ns bucket : Bytes) (ttl : Ttl) : Nested :=
  nested.insert ns (((nested.get? ns).getD .empty).insert bucket ttl)

def ttl? (nested : Nested) (ns bucket : Bytes) : Option Ttl :=
  (nested.get? ns).bind (·.get? bucket)

def size (nested : Nested) : Nat :=
  (nested.entries.map fun e => e.2.size).sum

def setAll (settings : List Setting) : Nested :=
  settings.foldl (fun nested setting => nested.setTtl setting.1.1 setting.1.2 setting.2) .empty

end Nested

structure Tabled (settings : List Setting) : Prop where
  never : ∀ key serverTtl, LastSet settings (place key) .never →
    (setAll settings).resolve key serverTtl = none
  millis : ∀ key serverTtl n, LastSet settings (place key) (.millis n) →
    (setAll settings).resolve key serverTtl = some n
  unset : ∀ key serverTtl, place key ∉ settings.map Prod.fst →
    (setAll settings).resolve key serverTtl = if serverTtl = 0 then none else some serverTtl
  distinct : (setAll settings).size = (settings.map Prod.fst).toFinset.card
  nested : (Nested.setAll settings).size = (setAll settings).size ∧ ∀ ns bucket,
    (Nested.setAll settings).ttl? ns bucket = (setAll settings).ttl? ns bucket

section Settings

variable {settings : List Setting} {setting : Setting} {policy : BucketPolicy} {nested : Nested}
  {ns bucket : Bytes} {ttl : Ttl}

theorem setAll_concat : setAll (settings ++ [setting]) =
    (setAll settings).setTtl setting.1.1 setting.1.2 setting.2 := by
  rw [setAll, List.foldl_append]
  rfl

theorem ttl?_set (policy : BucketPolicy) (setting : Setting) :
    (policy.setTtl setting.1.1 setting.1.2 setting.2).ttl? ns bucket =
      if (ns, bucket) = setting.1 then some setting.2 else policy.ttl? ns bucket :=
  Table.get?_insert policy.entries setting.1 (ns, bucket) setting.2

theorem lastSet_concat {spot : Bytes × Bytes} : LastSet (settings ++ [setting]) spot ttl ↔
    if spot = setting.1 then setting.2 = ttl else LastSet settings spot ttl := by
  constructor
  · rintro ⟨before, behind, all, free⟩
    rcases concat_eq_append_cons_iff.mp all with ⟨rfl, rfl, rfl⟩ | ⟨rest, rfl, rfl⟩
    · exact (if_pos rfl).mpr rfl
    · simp only [List.map_append, List.mem_append, not_or] at free
      rw [if_neg (by simpa using free.2)]
      exact ⟨before, rest, rfl, free.1⟩
  · split
    · next same =>
        rintro rfl
        exact ⟨settings, [], by rw [same], List.not_mem_nil⟩
    · next other =>
        rintro ⟨before, behind, rfl, free⟩
        refine ⟨before, behind ++ [setting], by simp, ?_⟩
        rw [List.map_append, List.mem_append, not_or]
        exact ⟨free, by simpa using other⟩

theorem ttl?_setAll_eq_some_iff :
    (setAll settings).ttl? ns bucket = some ttl ↔ LastSet settings (ns, bucket) ttl := by
  induction settings using List.reverseRecOn with
  | nil => simp [setAll, ttl?, LastSet]
  | append_singleton settings setting ih =>
      rw [setAll_concat, ttl?_set, lastSet_concat, ← ih]
      split <;> simp

theorem ttl?_setAll_eq_none_iff :
    (setAll settings).ttl? ns bucket = none ↔ (ns, bucket) ∉ settings.map Prod.fst := by
  induction settings using List.reverseRecOn with
  | nil => simp [setAll, ttl?]
  | append_singleton settings setting ih =>
      rw [setAll_concat, ttl?_set, List.map_append, List.mem_append, not_or, ← ih]
      split
      · next same => simp [same]
      · next other => simp [other]

theorem size_setAll : (setAll settings).size = (settings.map Prod.fst).toFinset.card := by
  have keys : ((setAll settings).entries.entries.map Prod.fst).toFinset =
      (settings.map Prod.fst).toFinset := by
    ext ⟨ns, bucket⟩
    rw [List.mem_toFinset, List.mem_toFinset, Table.mem_keys_iff]
    exact not_iff_comm.mp ttl?_setAll_eq_none_iff.symm
  rw [← keys, List.toFinset_card_of_nodup (setAll settings).entries.nodup, List.length_map]
  rfl

namespace Nested

theorem setAll_concat : setAll (settings ++ [setting]) =
    (setAll settings).setTtl setting.1.1 setting.1.2 setting.2 := by
  rw [setAll, List.foldl_append]
  rfl

theorem ttl?_set (nested : Nested) (setting : Setting) :
    (nested.setTtl setting.1.1 setting.1.2 setting.2).ttl? ns bucket =
      if (ns, bucket) = setting.1 then some setting.2 else nested.ttl? ns bucket := by
  obtain ⟨⟨ns', bucket'⟩, ttl⟩ := setting
  simp only [ttl?, setTtl, Table.get?_insert, Prod.mk.injEq]
  by_cases same : ns = ns'
  · subst same
    cases there : nested.get? ns <;> simp [Table.get?_insert]
  · simp [same]

theorem size_set (nested : Nested) (ns bucket : Bytes) (ttl : Ttl) :
    (nested.setTtl ns bucket ttl).size =
      if nested.ttl? ns bucket = none then nested.size + 1 else nested.size := by
  have sum {entries entries' : List (Bytes × Table Bytes Ttl)} (perm : entries.Perm entries') :
      (entries.map fun e => e.2.size).sum = (entries'.map fun e => e.2.size).sum :=
    (perm.map _).sum_eq
  unfold setTtl
  cases there : nested.get? ns with
  | none =>
      have added : (nested.insert ns (Table.empty.insert bucket ttl)).entries.Perm _ :=
        Table.perm_insert_new there
      have whole := sum added
      have alone : (Table.empty.insert bucket ttl).size = 1 := Table.size_insert _ _ _
      simp only [List.map_cons, List.sum_cons, alone] at whole
      simpa [size, ttl?, there, Nat.add_comm] using whole
  | some inner =>
      have before := sum (Table.perm_cons_erase there)
      have changed : (nested.insert ns (inner.insert bucket ttl)).entries.Perm _ :=
        Table.perm_insert
      have behind := sum changed
      simp only [List.map_cons, List.sum_cons, Table.size_insert] at before behind
      simp only [size, ttl?, there, Option.bind_some, Option.getD_some, before, behind]
      split <;> omega

theorem ttl?_setAll : (setAll settings).ttl? ns bucket =
    (BucketPolicy.setAll settings).ttl? ns bucket := by
  induction settings using List.reverseRecOn with
  | nil => rfl
  | append_singleton settings setting ih =>
      rw [setAll_concat, BucketPolicy.setAll_concat, ttl?_set, BucketPolicy.ttl?_set, ih]

theorem size_setAll : (setAll settings).size = (BucketPolicy.setAll settings).size := by
  induction settings using List.reverseRecOn with
  | nil => rfl
  | append_singleton settings setting ih =>
      rw [setAll_concat, BucketPolicy.setAll_concat, size_set, ttl?_setAll, ih]
      exact (Table.size_insert _ _ _).symm

end Nested

theorem tabled (settings : List Setting) : Tabled settings where
  never key serverTtl last := by
    have found : (setAll settings).ttl? key.namespaceOrDefault key.bucket = some .never :=
      ttl?_setAll_eq_some_iff.mpr last
    simp only [resolve, found]
  millis key serverTtl n last := by
    have found : (setAll settings).ttl? key.namespaceOrDefault key.bucket = some (.millis n) :=
      ttl?_setAll_eq_some_iff.mpr last
    simp only [resolve, found]
  unset key serverTtl free := by
    have missing : (setAll settings).ttl? key.namespaceOrDefault key.bucket = none :=
      ttl?_setAll_eq_none_iff.mpr free
    simp only [resolve, missing]
  distinct := size_setAll
  nested := ⟨Nested.size_setAll, fun _ _ => Nested.ttl?_setAll⟩

end Settings

example : (setAll [((ascii "default", [1]), .millis 5), (([2], [1]), .never),
    ((ascii "default", [1]), .millis 7)]).resolve ⟨none, [1], [3]⟩ 9 = some 7 := by decide

end BucketPolicy

end ReadThrough
