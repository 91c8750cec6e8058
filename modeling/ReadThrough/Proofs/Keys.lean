import ReadThrough.Key

namespace ReadThrough

section Cut

variable {s : UInt8} {a a' b b' : Bytes}

theorem append_separator_inj (h : s ∉ a) (h' : s ∉ a') (same : a ++ s :: b = a' ++ s :: b') :
    a = a' ∧ b = b' := by
  have cuts := congrArg (cut s) same
  rw [cut_append s a b h, cut_append s a' b' h', Prod.mk.injEq, Option.some.injEq] at cuts
  exact cuts

end Cut

namespace Key

structure Settled (key : Key) : Prop where
  ns : ∀ ns, key.ns = some ns → ns ≠ [] ∧ separator ∉ ns
  bucket : separator ∉ key.bucket

theorem parts_free (raw : Bytes) :
    separator ∉ (parts raw).1 ∧ separator ∉ (parts raw).2.1 := by
  unfold parts
  have first := cut_fst_not_mem separator raw
  split
  · next h =>
      rw [h] at first
      exact ⟨first, List.not_mem_nil⟩
  · next rest h =>
      rw [h] at first
      have second := cut_fst_not_mem separator rest
      split
      · next h' =>
          rw [h'] at second
          exact ⟨first, second⟩
      · next h' =>
          rw [h'] at second
          exact ⟨first, second⟩

theorem settled_make {ns : Option Bytes} {bucket name : Bytes}
    (free : ∀ part, ns = some part → separator ∉ part) (bucketFree : separator ∉ bucket) :
    (make ns bucket name).Settled where
  ns part h := by
    obtain ⟨given, some⟩ := Option.filter_eq_some_iff.mp h
    exact ⟨of_decide_eq_true some, free part given⟩
  bucket := bucketFree

theorem settled_of_settle {p : Bytes × Bytes × Bytes} {key : Key} (h : settle p = some key)
    (free : separator ∉ p.1 ∧ separator ∉ p.2.1) : key.Settled := by
  obtain ⟨ns, bucket, name⟩ := p
  unfold settle at h
  dsimp only at h free
  split at h
  · cases h
    exact settled_make (fun part e => Option.some.inj e ▸ free.1) free.2
  · split at h
    · cases h
      exact settled_make (fun part e => by cases e) free.1
    · split at h
      · cases h
        exact settled_make (fun part e => by cases e) List.not_mem_nil
      · cases h

theorem settled_of_split {raw : Bytes} {key : Key} (h : split raw = .ok key) : key.Settled := by
  unfold split at h
  split at h
  · cases h
  · split at h
    · next settled =>
        cases h
        exact settled_of_settle settled (parts_free raw)
    · cases h

def Nests (outer inner : Key) : Prop :=
  outer.ns = none ∧ inner.ns = some outer.bucket ∧
    outer.name = inner.bucket ++ separator :: inner.name

theorem join_none {bucket name : Bytes} (has : bucket ≠ []) :
    (Key.mk none bucket name).join = bucket ++ separator :: name := by
  simp [join, spell, has]

theorem join_some {ns bucket name : Bytes} (has : ns ≠ []) :
    (Key.mk (some ns) bucket name).join = ns ++ separator :: (bucket ++ separator :: name) := by
  simp [join, spell, Option.filter_some, has]

theorem eq_of_join_eq {key other : Key} (h : key.Settled) (h' : other.Settled)
    (has : key.hasBucket = true) (has' : other.hasBucket = true) (same : key.join = other.join) :
    key = other ∨ key.Nests other ∨ other.Nests key := by
  obtain ⟨ns, bucket, name⟩ := key
  obtain ⟨ns', bucket', name'⟩ := other
  have some : bucket ≠ [] := of_decide_eq_true has
  have some' : bucket' ≠ [] := of_decide_eq_true has'
  cases ns with
  | none =>
      rw [join_none some] at same
      cases ns' with
      | none =>
          rw [join_none some'] at same
          obtain ⟨rfl, rfl⟩ := append_separator_inj h.bucket h'.bucket same
          exact Or.inl rfl
      | some part =>
          obtain ⟨filled, free⟩ := h'.ns part rfl
          rw [join_some filled] at same
          obtain ⟨rfl, rfl⟩ := append_separator_inj h.bucket free same
          exact Or.inr (Or.inl ⟨rfl, rfl, rfl⟩)
  | some part =>
      obtain ⟨filled, free⟩ := h.ns part rfl
      rw [join_some filled] at same
      cases ns' with
      | none =>
          rw [join_none some'] at same
          obtain ⟨rfl, rfl⟩ := append_separator_inj free h'.bucket same
          exact Or.inr (Or.inr ⟨rfl, rfl, rfl⟩)
      | some part' =>
          obtain ⟨filled', free'⟩ := h'.ns part' rfl
          rw [join_some filled'] at same
          obtain ⟨rfl, rest⟩ := append_separator_inj free free' same
          obtain ⟨rfl, rfl⟩ := append_separator_inj h.bucket h'.bucket rest
          exact Or.inl rfl

end Key

end ReadThrough
