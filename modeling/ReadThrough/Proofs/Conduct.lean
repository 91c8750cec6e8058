import ReadThrough.Proofs.Deed

namespace ReadThrough.Proxy

inductive Blameless : Proxy × Hand → Proxy × Hand → Prop where
  | still {a b : Proxy × Hand} : b.1.breaches = a.1.breaches → Blameless a b
  | reply {p : Proxy} {hand : Hand} {number : Option Nat} {client slot : Nat} (value : Reply) :
      Blameless (p, (number, .reply client slot) :: hand) (p.reply client slot value, hand)
  | refuse {p : Proxy} {hand : Hand} {number : Option Nat} {client group index : Nat}
      {yield : Yield} {part : Fragment.Part} : yield.Brings index part →
      p.groups.accepts group part = false →
      Blameless (p, (number, .part client group index yield) :: hand)
        (p.breach (.partRefused group), hand)
  | answer {p : Proxy} {hand : Hand} {number : Option Nat} {client group index : Nat}
      {b : Proxy × Hand} : Blameless (p, (number, .part client group index .answer) :: hand) b

def Conduct (fan : Nat → Prop) (fair : Prop) (a b : Proxy × Hand) : Prop :=
  Deed fan a b ∧ (fair → Blameless a b)

abbrev Handles (fan : Nat → Prop) (fair : Prop) (p : Proxy) (hand : Hand) (q : Proxy)
    (left : Hand) : Prop :=
  Relation.ReflTransGen (Conduct fan fair) (p, hand) (q, left)

namespace Handles

variable {fan : Nat → Prop} {fair : Prop} {p q : Proxy} {hand left : Hand}

theorem deeds (h : Handles fan fair p hand q left) : Deeds fan p hand q left :=
  Relation.ReflTransGen.mono (fun _ _ conduct => conduct.1) _ _ h

theorem of_deed (deed : Deed fan (p, hand) (q, left)) (same : q.breaches = p.breaches) :
    Handles fan fair p hand q left :=
  .single ⟨deed, fun _ => .still same⟩

theorem of_alike (alike : Alike p q) (same : q.breaches = p.breaches) :
    Handles fan fair p hand q hand :=
  of_deed (.quiet alike) same

theorem breach (what : Breach) (unfair : ¬ fair) : Handles fan fair p hand (p.breach what) hand :=
  .single ⟨.quiet (Alike.breach p what), fun given => absurd given unfair⟩

theorem number {duty : Duty} : Handles fan fair p ((none, duty) :: hand) p.newOperation.2
    ((some p.nextOperation, duty) :: hand) :=
  of_deed .number rfl

theorem foldl {α : Type} {f : Proxy → α → Proxy} {owes : α → Option Nat × Duty} {xs : List α}
    (each : ∀ x ∈ xs, ∀ p hand, Handles fan fair p (owes x :: hand) (f p x) hand) :
    Handles fan fair p (xs.map owes ++ hand) (xs.foldl f p) hand := by
  induction xs generalizing p with
  | nil => exact .refl
  | cons x xs ih =>
      refine (each x List.mem_cons_self p _).trans (ih ?_)
      intro y hy
      exact each y (List.mem_cons_of_mem _ hy)

end Handles

end ReadThrough.Proxy
