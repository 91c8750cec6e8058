import ReadThrough.Proofs.Balanced

namespace ReadThrough.Proxy

variable {fan : Nat → Prop} {fair : Prop} {p q : Proxy} {hand left : Hand}

theorem not_answer {number : Option Nat} {client group index : Nat}
    (b : Balanced p ((number, .part client group index .answer) :: hand)) : False := by
  obtain ⟨g, -, -, awaits⟩ := b.awaited client group index .answer List.mem_cons_self
  unfold Fragment.Group.Awaits at awaits
  split at awaits
  · cases awaits
  · cases awaits.1

theorem Blameless.breaches_eq {a b : Proxy × Hand} (h : Blameless a b) (t : Tidy a.1 a.2)
    (balanced : Balanced a.1 a.2) : b.1.breaches = a.1.breaches := by
  cases h with
  | still same => exact same
  | @reply p hand number client slot value =>
      rcases reply_cases p client slot value with ⟨full, -⟩ | ⟨filled, -, h⟩
      · have free : ((p.client client).replies.fill? slot value).isSome :=
          ReplyQueue.fill?_isSome (t.contiguous client) (Balance.mem_of_reply balanced)
        rw [full] at free
        cases free
      · rw [h]
  | refuse brings refuses =>
      rw [balanced.not_refused brings] at refuses
      cases refuses
  | answer => exact (not_answer balanced).elim

theorem breaches_of_conduct {a b : Proxy × Hand}
    (h : Relation.ReflTransGen (Conduct fan fair) a b) (given : fair) (t : Tidy a.1 a.2)
    (balanced : Balanced a.1 a.2) : b.1.breaches = a.1.breaches := by
  induction h with
  | refl => rfl
  | tail before conduct ih =>
      have deeds := Handles.deeds before
      exact ((conduct.2 given).breaches_eq (t.deeds deeds) (balanced.deeds deeds t)).trans ih

structure Clean (p : Proxy) (hand : Hand) (q : Proxy) (left : Hand) : Prop where
  deeds : Deeds (fun _ => True) p hand q left
  kept : Tidy p hand → Balanced p hand → q.breaches = p.breaches

theorem Handles.clean (h : Handles (fun _ => True) fair p hand q left) (given : fair) :
    Clean p hand q left :=
  ⟨h.deeds, breaches_of_conduct h given⟩

end ReadThrough.Proxy
