import Mathlib.Data.List.Forall2
import ReadThrough.Failure

namespace ReadThrough

variable {α β ε : Type}

theorem map_eq_ok {f : α → β} {e : Except ε α} {b : β} (h : e.map f = .ok b) :
    ∃ a, e = .ok a ∧ f a = b := by
  cases e with
  | error why => cases h
  | ok a => exact ⟨a, rfl, Except.ok.inj h⟩

theorem bind_eq_ok {f : α → Except Failure β} {e : Except Failure α} {b : β}
    (h : e.bind f = .ok b) : ∃ a, e = .ok a ∧ f a = .ok b := by
  cases e with
  | error why => cases h
  | ok a => exact ⟨a, rfl, h⟩

theorem map_eq_error {f : α → β} {e : Except Failure α} {why : Failure}
    (h : e.map f = .error why) : e = .error why := by
  cases e with
  | error why' => exact congrArg Except.error (Except.error.inj h)
  | ok a => cases h

theorem bind_eq_error {f : α → Except Failure β} {e : Except Failure α} {why : Failure}
    (h : e.bind f = .error why) : e = .error why ∨ ∃ a, e = .ok a ∧ f a = .error why := by
  cases e with
  | error why' => exact Or.inl (congrArg Except.error (Except.error.inj h))
  | ok a => exact Or.inr ⟨a, rfl, h⟩

theorem forall₂_of_mapM {f : α → Except Failure β} {xs : List α} {ys : List β}
    (h : xs.mapM f = .ok ys) : List.Forall₂ (fun x y => f x = .ok y) xs ys := by
  induction xs generalizing ys with
  | nil =>
      cases h
      exact .nil
  | cons x xs ih =>
      rw [List.mapM_cons] at h
      obtain ⟨y, hy, h⟩ := bind_eq_ok h
      obtain ⟨rest, hrest, h⟩ := bind_eq_ok h
      cases h
      exact .cons hy (ih hrest)

theorem length_of_mapM {f : α → Except Failure β} {xs : List α} {ys : List β}
    (h : xs.mapM f = .ok ys) : ys.length = xs.length := by
  have each := forall₂_of_mapM h
  clear h
  induction each with
  | nil => rfl
  | cons _ _ ih => exact congrArg Nat.succ ih

theorem exists_of_mem_mapM {f : α → Except Failure β} {xs : List α} {ys : List β}
    (h : xs.mapM f = .ok ys) {y : β} (hy : y ∈ ys) : ∃ x ∈ xs, f x = .ok y := by
  have each := forall₂_of_mapM h
  clear h
  induction each with
  | nil => cases hy
  | @cons x z xs zs hx _ ih =>
      rcases List.mem_cons.mp hy with rfl | hy
      · exact ⟨x, List.mem_cons_self, hx⟩
      · obtain ⟨x', hm, hx'⟩ := ih hy
        exact ⟨x', List.mem_cons_of_mem _ hm, hx'⟩

theorem exists_of_mapM {f : α → Except Failure β} {xs : List α} {ys : List β}
    (h : xs.mapM f = .ok ys) {x : α} (hx : x ∈ xs) : ∃ y ∈ ys, f x = .ok y := by
  have each := forall₂_of_mapM h
  clear h
  induction each with
  | nil => cases hx
  | @cons z y zs ys hy _ ih =>
      rcases List.mem_cons.mp hx with rfl | hx
      · exact ⟨y, List.mem_cons_self, hy⟩
      · obtain ⟨y', hm, hy'⟩ := ih hx
        exact ⟨y', List.mem_cons_of_mem _ hm, hy'⟩

theorem error_of_mapM {f : α → Except Failure β} {xs : List α} {why : Failure}
    (h : xs.mapM f = .error why) : ∃ x ∈ xs, f x = .error why := by
  induction xs with
  | nil => cases h
  | cons x xs ih =>
      rw [List.mapM_cons] at h
      rcases bind_eq_error h with here | ⟨y, -, h⟩
      · exact ⟨x, List.mem_cons_self, here⟩
      · rcases bind_eq_error h with later | ⟨rest, -, h⟩
        · obtain ⟨x', hm, hx'⟩ := ih later
          exact ⟨x', List.mem_cons_of_mem _ hm, hx'⟩
        · cases h

end ReadThrough
