import Mathlib.Tactic.IntervalCases
import ActionRegistry.Proofs.Yaml.Cursor

/-!
# Numbers that were written

The digits of a number read back as the number, in base ten and in hexadecimal, also with zeros
before them where there is a fixed number of digits. A decimal number has no zeros before it, so it
is not taken for a text.
-/

namespace ActionRegistry.Yaml

variable {n : Nat}

/-- Digits read back as their number if each digit does. -/
theorem foldlM_toDigits {base : Nat} (hbase : 1 < base) {value : Char → Option Nat}
    (hvalue : ∀ d, d < base → value d.digitChar = some d) (n : Nat) :
    (Nat.toDigits base n).foldlM (fun m c => (value c).map (m * base + ·)) 0 = some n := by
  induction n using Nat.strong_induction_on with
  | _ n ih =>
    rw [Nat.toDigits_eq_if hbase]
    split
    next hlt => simp [hvalue n hlt]
    next hge =>
      have hdiv : n / base < n := Nat.div_lt_self (by omega) hbase
      have hmod : n % base < base := Nat.mod_lt _ (by omega)
      rw [List.foldlM_append, ih _ hdiv]
      have hsum : n / base * base + n % base = n := by
        rw [Nat.mul_comm]
        exact Nat.div_add_mod n base
      simp [hvalue _ hmod, hsum]

theorem exists_of_mem_toDigits {base : Nat} (hbase : 1 < base) {c : Char}
    (h : c ∈ Nat.toDigits base n) : ∃ d < base, c = d.digitChar := by
  induction n using Nat.strong_induction_on with
  | _ n ih =>
    rw [Nat.toDigits_eq_if hbase] at h
    split at h
    next hlt => exact ⟨n, hlt, List.mem_singleton.1 h⟩
    next hge =>
      rcases List.mem_append.1 h with h | h
      · exact ih _ (Nat.div_lt_self (by omega) hbase) h
      · exact ⟨n % base, Nat.mod_lt _ (by omega), List.mem_singleton.1 h⟩

/-! ### Hexadecimal numbers -/

theorem hexValue?_digitChar {d : Nat} (h : d < 16) :
    Token.hexValue? d.digitChar.toUpper = some d := by
  interval_cases d <;> rfl

theorem length_upperHex {width : Nat} (hwidth : 0 < width) (h : n < 16 ^ width) :
    (Writer.upperHex width n).length = width := by
  have hlength := (Nat.length_toDigits_le_iff (b := 16) (by omega) hwidth).2 h
  simp [Writer.upperHex]
  omega

theorem hexNumber?_upperHex (width n : Nat) :
    Token.hexNumber? (Writer.upperHex width n) = some n := by
  have hzeros : ∀ count, (List.replicate count '0').foldlM
      (fun n c => (Token.hexValue? c).map (n * 16 + ·)) 0 = some 0 := by
    intro count
    induction count with
    | zero => rfl
    | succ count ih =>
      rw [List.replicate_succ, List.foldlM_cons]
      exact ih
  rw [Token.hexNumber?, Writer.upperHex, List.foldlM_append, hzeros, Option.bind_eq_bind,
    Option.bind_some, List.foldlM_map]
  exact foldlM_toDigits (by omega) (fun d hd => hexValue?_digitChar hd) n

theorem isAscii_of_mem_upperHex {width : Nat} {c : Char} (h : c ∈ Writer.upperHex width n) :
    isAscii c = true := by
  rcases List.mem_append.1 h with h | h
  · rw [List.eq_of_mem_replicate h]
    decide
  · obtain ⟨x, hx, rfl⟩ := List.mem_map.1 h
    obtain ⟨d, hd, rfl⟩ := exists_of_mem_toDigits (by omega) hx
    interval_cases d <;> decide

/-! ### Decimal numbers -/

theorem digitValue?_digitChar {d : Nat} (h : d < 10) :
    Scalar.digitValue? 10 d.digitChar = some d := by
  interval_cases d <;> rfl

theorem head?_toDigits_ne_zero (h : n ≠ 0) : (Nat.toDigits 10 n).head? ≠ some '0' := by
  induction n using Nat.strong_induction_on with
  | _ n ih =>
    rw [Nat.toDigits_eq_if (by omega)]
    split
    next hlt => interval_cases n <;> simp_all
    next hge =>
      have hne : Nat.toDigits 10 (n / 10) ≠ [] := Nat.toDigits_ne_nil
      obtain ⟨c, cs, hcs⟩ := List.exists_cons_of_ne_nil hne
      have hfirst := ih (n / 10) (by omega) (by omega)
      rw [hcs] at hfirst ⊢
      exact hfirst

theorem isDigit_of_mem_toDigits {c : Char} (h : c ∈ Nat.toDigits 10 n) : c.isDigit = true :=
  Nat.isDigit_of_mem_toDigits (by omega) (by omega) h

theorem unsigned?_toDigits (n : Nat) : Scalar.unsigned? (Nat.toDigits 10 n) = some n := by
  have hdigit : ∀ c ∈ Nat.toDigits 10 n, c.isDigit = true := fun c => isDigit_of_mem_toDigits
  have hnumber : Scalar.natural? 10 (Nat.toDigits 10 n) = some n := by
    rw [Scalar.natural?, if_neg (by simp)]
    exact foldlM_toDigits (by omega) (fun d hd => digitValue?_digitChar hd) n
  by_cases hzero : n = 0
  · subst hzero
    rfl
  · obtain ⟨c, cs, hcs⟩ := List.exists_cons_of_ne_nil (Nat.toDigits_ne_nil (n := n) (b := 10))
    have hfirst : c ≠ '0' := by
      have hfirst := head?_toDigits_ne_zero hzero
      rw [hcs] at hfirst
      simpa using hfirst
    rw [hcs] at hdigit hnumber ⊢
    have hc : c.isDigit = true := hdigit c List.mem_cons_self
    have hplus : c ≠ '+' := by
      rintro rfl
      cases hc
    have hminus : c ≠ '-' := by
      rintro rfl
      cases hc
    have hbased : Scalar.based? (c :: cs) = none := by
      simp [Scalar.based?, hfirst]
    have hpadded : Scalar.isPadded (c :: cs) = false := by
      simp [Scalar.isPadded, Scalar.dropSign, hplus, hminus, hfirst]
    simp [Scalar.unsigned?, hplus, hbased, hpadded, hnumber]

end ActionRegistry.Yaml
