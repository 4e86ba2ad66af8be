import ActionRegistry.Error

/-!
# Checks one after the other

A check passes or fails with an error. Of a list of checks the first that fails ends the work with
its error, so all pass or there is one before which all pass. Where it is known of each check what
it decides and what its errors tell, the same is known of the list.
-/

namespace ActionRegistry.Result

variable {ι ε α β : Type}

theorem map_eq_ok_iff {f : α → β} {x : Except ε α} {b : β} :
    f <$> x = .ok b ↔ ∃ a, x = .ok a ∧ f a = b := by
  cases x <;> simp

theorem map_eq_error_iff {f : α → β} {x : Except ε α} {e : ε} :
    f <$> x = .error e ↔ x = .error e := by
  cases x <;> simp

/-! ### One check -/

/-- A check passes just if something holds, and fails just with an error that tells otherwise. -/
structure Decides (x : Except ε Unit) (holds : Prop) (tells : ε → Prop) : Prop where
  ok_iff : x = .ok () ↔ holds
  error_iff : ∀ e, x = .error e ↔ ¬holds ∧ tells e

section Decides

variable {holds : Prop} {tells : ε → Prop}

theorem decides_ok (h : holds) : Decides (.ok ()) holds tells := by
  constructor <;> simp [h]

theorem decides_error {e : ε} (h : ¬holds) (htells : ∀ e', tells e' ↔ e' = e) :
    Decides (.error e) holds tells := by
  constructor <;> simp [h, htells, eq_comm]

theorem decides_ite {c : Prop} [Decidable c] {e : ε} (h : holds ↔ ¬c)
    (htells : ∀ e', tells e' ↔ e' = e) :
    Decides (if c then .error e else .ok ()) holds tells := by
  by_cases hc : c
  · rw [if_pos hc]
    exact decides_error (fun hholds => h.1 hholds hc) htells
  · rw [if_neg hc]
    exact decides_ok (h.2 hc)

end Decides

/-! ### A list of checks -/

/-- The first element that does not pass has a fault. -/
def FailsFirst (passes : ι → Prop) (fault : ι → ε → Prop) (all : List ι) (e : ε) : Prop :=
  ∃ before i after, all = before ++ i :: after ∧ (∀ j ∈ before, passes j) ∧ fault i e

section FailsFirst

variable {passes : ι → Prop} {fault : ι → ε → Prop} {i : ι} {rest : List ι} {e e' : ε}

theorem not_failsFirst_nil : ¬FailsFirst passes fault [] e := by
  simp [FailsFirst]

theorem failsFirst_cons_of_fault (hfails : ¬passes i) (hfault : ∀ e, fault i e ↔ e' = e) :
    FailsFirst passes fault (i :: rest) e ↔ e' = e := by
  rw [← hfault]
  constructor
  · rintro ⟨before, j, after, heq, hbefore, hj⟩
    cases before with
    | nil =>
      cases heq
      exact hj
    | cons k before =>
      cases heq
      exact absurd (hbefore i List.mem_cons_self) hfails
  · exact fun hi => ⟨[], i, rest, rfl, nofun, hi⟩

theorem failsFirst_cons_of_passes (hpasses : passes i) (hfault : ∀ e, ¬fault i e) :
    FailsFirst passes fault (i :: rest) e ↔ FailsFirst passes fault rest e := by
  constructor
  · rintro ⟨before, j, after, heq, hbefore, hj⟩
    cases before with
    | nil =>
      cases heq
      exact absurd hj (hfault e)
    | cons k before =>
      cases heq
      exact ⟨before, j, after, rfl, (List.forall_mem_cons.1 hbefore).2, hj⟩
  · rintro ⟨before, j, after, rfl, hbefore, hj⟩
    exact ⟨i :: before, j, after, rfl, List.forall_mem_cons.2 ⟨hpasses, hbefore⟩, hj⟩

end FailsFirst

variable {check : ι → Except ε Unit} {checks : List ι}

theorem forM_eq_ok_iff : checks.forM check = .ok () ↔ ∀ i ∈ checks, check i = .ok () := by
  induction checks with
  | nil => simp [List.forM, pure, Except.pure]
  | cons i rest ih =>
    rw [List.forM, List.forall_mem_cons, ← ih]
    cases check i <;> simp

theorem forM_eq_error_iff {e : ε} : checks.forM check = .error e
    ↔ FailsFirst (check · = .ok ()) (check · = .error ·) checks e := by
  induction checks with
  | nil => simp [List.forM, pure, Except.pure, not_failsFirst_nil]
  | cons i rest ih =>
    rw [List.forM]
    cases hi : check i with
    | error e' =>
      rw [error_bind, Except.error.injEq]
      exact Iff.symm (failsFirst_cons_of_fault (by simp [hi]) (by simp [hi]))
    | ok u =>
      rw [ok_bind, ih]
      exact Iff.symm (failsFirst_cons_of_passes hi (by simp [hi]))

/-- All checks pass, or the first thing that does not hold is told. -/
theorem forM_decides {holds : ι → Prop} {tells : ι → ε → Prop}
    (h : ∀ i, Decides (check i) (holds i) (tells i)) (checks : List ι) :
    (checks.forM check = .ok () ↔ ∀ i ∈ checks, holds i)
      ∧ ∀ e, checks.forM check = .error e
        ↔ FailsFirst holds (fun i e => ¬holds i ∧ tells i e) checks e := by
  simp only [forM_eq_ok_iff, forM_eq_error_iff, FailsFirst, (h _).ok_iff, (h _).error_iff,
    implies_true, and_self]

end ActionRegistry.Result
