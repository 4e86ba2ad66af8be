import ActionRegistry.Action.Registry

/-!
# The order of the actions

Sorting is stable: it keeps the actions of each order as they were registered. Together with the
ascending orders this leaves one list only. Two such lists start with an action of the same order,
the smallest there is, and the actions of that order are the same in both.
-/

namespace ActionRegistry

def ofOrder (order : Int64) (actions : List Action) : List Action :=
  actions.filter fun a => a.order == order

theorem ofOrder_append (order : Int64) (l₁ l₂ : List Action) :
    ofOrder order (l₁ ++ l₂) = ofOrder order l₁ ++ ofOrder order l₂ :=
  List.filter_append l₁ l₂

theorem ofOrder_cons (order : Int64) (a : Action) (l : List Action) :
    ofOrder order (a :: l) = if a.order = order then a :: ofOrder order l else ofOrder order l := by
  simp [ofOrder, List.filter_cons]

theorem mem_ofOrder {order : Int64} {a : Action} {l : List Action} :
    a ∈ ofOrder order l ↔ a ∈ l ∧ a.order = order := by
  simp [ofOrder]

theorem order_le_of_mem {a c : Action} {l : List Action}
    (h : (a :: l).Pairwise fun a b => a.order ≤ b.order) (hc : c ∈ a :: l) : a.order ≤ c.order := by
  rcases List.mem_cons.1 hc with rfl | hc
  · exact Int64.le_refl _
  · exact (List.pairwise_cons.1 h).1 c hc

/-- A list of actions in ascending order, those of one order as they were. -/
structure IsStableSort (actions sorted : List Action) : Prop where
  perm : sorted.Perm actions
  ascending : sorted.Pairwise fun a b => a.order ≤ b.order
  stable : ∀ order, ofOrder order sorted = ofOrder order actions

namespace Registry

theorem insertSorted_perm (a : Action) (sorted : List Action) :
    (insertSorted a sorted).Perm (a :: sorted) := by
  induction sorted with
  | nil => exact List.Perm.refl _
  | cons b bs ih =>
    rw [insertSorted]
    split
    · exact List.Perm.refl _
    · exact (ih.cons b).trans (List.Perm.swap a b bs)

theorem insertSorted_ascending (a : Action) {sorted : List Action}
    (h : sorted.Pairwise fun a b => a.order ≤ b.order) :
    (insertSorted a sorted).Pairwise fun a b => a.order ≤ b.order := by
  induction sorted with
  | nil => exact List.pairwise_singleton _ a
  | cons b bs ih =>
    obtain ⟨hhead, hrest⟩ := List.pairwise_cons.1 h
    rw [insertSorted]
    split
    next hlt =>
      refine List.pairwise_cons.2 ⟨fun c hc => ?_, h⟩
      exact Int64.le_trans (Int64.le_of_lt hlt) (order_le_of_mem h hc)
    next hlt =>
      refine List.pairwise_cons.2 ⟨fun c hc => ?_, ih hrest⟩
      rcases List.mem_cons.1 ((insertSorted_perm a bs).subset hc) with rfl | hc
      · exact Int64.not_lt.1 hlt
      · exact hhead c hc

/-- An action goes after those of its order. -/
theorem ofOrder_insertSorted (a : Action) {sorted : List Action}
    (h : sorted.Pairwise fun a b => a.order ≤ b.order) (order : Int64) :
    ofOrder order (insertSorted a sorted) = ofOrder order sorted ++ ofOrder order [a] := by
  induction sorted with
  | nil => rfl
  | cons b bs ih =>
    have hrest := (List.pairwise_cons.1 h).2
    rw [insertSorted]
    split
    next hlt =>
      by_cases ha : a.order = order
      · -- All that follow are of a greater order.
        have hnone : ofOrder order (b :: bs) = [] := by
          refine List.eq_nil_iff_forall_not_mem.2 fun c hc => ?_
          obtain ⟨hc, hcorder⟩ := mem_ofOrder.1 hc
          have hle := order_le_of_mem h hc
          rw [hcorder, ← ha] at hle
          exact Int64.not_lt.2 hle hlt
        rw [ofOrder_cons, hnone, List.nil_append, ofOrder_cons, if_pos ha, if_pos ha]
        rfl
      · rw [ofOrder_cons, if_neg ha, ofOrder_cons order a, if_neg ha]
        exact (List.append_nil _).symm
    next =>
      rw [ofOrder_cons, ih hrest, ofOrder_cons order b]
      split <;> rfl

/-- What is inserted next to last comes out as if it were sorted with the rest. -/
theorem foldl_insertSorted {earlier sorted : List Action} (h : IsStableSort earlier sorted)
    (actions : List Action) :
    IsStableSort (earlier ++ actions)
      (actions.foldl (fun sorted a => insertSorted a sorted) sorted) := by
  induction actions generalizing earlier sorted with
  | nil =>
    rw [List.append_nil]
    exact h
  | cons a rest ih =>
    have hnext : IsStableSort (earlier ++ [a]) (insertSorted a sorted) := by
      refine ⟨?_, insertSorted_ascending a h.ascending, fun order => ?_⟩
      · have hperm := (insertSorted_perm a sorted).trans (h.perm.cons a)
        exact hperm.trans (List.perm_append_singleton a earlier).symm
      · rw [ofOrder_insertSorted a h.ascending, h.stable, ofOrder_append]
    rw [← List.singleton_append, ← List.append_assoc]
    exact ih hnext

theorem isStableSort_sortedActions (r : Registry) : IsStableSort r.actions r.sortedActions :=
  foldl_insertSorted ⟨List.Perm.refl _, List.Pairwise.nil, fun _ => rfl⟩ r.actions

end Registry

/-- Ascending lists that have the same actions of every order are equal. -/
theorem eq_of_ofOrder_eq {s t : List Action} (hs : s.Pairwise fun a b => a.order ≤ b.order)
    (ht : t.Pairwise fun a b => a.order ≤ b.order)
    (h : ∀ order, ofOrder order s = ofOrder order t) : s = t := by
  induction s generalizing t with
  | nil =>
    cases t with
    | nil => rfl
    | cons b bs =>
      have hb := h b.order
      rw [ofOrder_cons, if_pos rfl] at hb
      cases hb
  | cons a as ih =>
    cases t with
    | nil =>
      have ha := h a.order
      rw [ofOrder_cons, if_pos rfl] at ha
      cases ha
    | cons b bs =>
      -- Each head is in the other list, which starts with its smallest order.
      have hb : b ∈ ofOrder b.order (a :: as) := by
        rw [h, mem_ofOrder]
        exact ⟨List.mem_cons_self, rfl⟩
      have ha : a ∈ ofOrder a.order (b :: bs) := by
        rw [← h, mem_ofOrder]
        exact ⟨List.mem_cons_self, rfl⟩
      have hab : a.order ≤ b.order := order_le_of_mem hs (mem_ofOrder.1 hb).1
      have hba : b.order ≤ a.order := order_le_of_mem ht (mem_ofOrder.1 ha).1
      have horder : a.order = b.order := Int64.le_antisymm hab hba
      have hhead := h b.order
      rw [ofOrder_cons, ofOrder_cons, if_pos horder, if_pos rfl] at hhead
      obtain ⟨rfl, _⟩ := List.cons.inj hhead
      have htail : ∀ order, ofOrder order as = ofOrder order bs := by
        intro order
        have horder := h order
        rw [ofOrder_cons, ofOrder_cons] at horder
        split at horder
        · exact (List.cons.inj horder).2
        · exact horder
      rw [ih (List.pairwise_cons.1 hs).2 (List.pairwise_cons.1 ht).2 htail]

theorem IsStableSort.unique {actions s t : List Action} (hs : IsStableSort actions s)
    (ht : IsStableSort actions t) : s = t :=
  eq_of_ofOrder_eq hs.ascending ht.ascending fun order =>
    (hs.stable order).trans (ht.stable order).symm

end ActionRegistry
