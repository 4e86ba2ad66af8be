import ActionRegistry.Slug

/-!
# Slugs can be read

A slug is base 64 without padding, so it can be decoded; the decoder here is the second side of the
statement and is written from the rules of base 64 alone. What it gives back is the identifier with
its first bit clear. Everything follows from that and from a bound on the digits: the first digit of
an octet whose first bit is clear is below 32, and two identifiers with one slug are the same but
for that bit.
-/

namespace ActionRegistry.Slug

/-! ### Reading base 64 -/

/-- The digits of base 64 that are safe in addresses, in their order. -/
def alphabet : List Char :=
  "ABCDEFGHIJKLMNOPQRSTUVWXYZabcdefghijklmnopqrstuvwxyz0123456789-_".toList

def value? (c : Char) : Option Nat := alphabet.idxOf? c

/-- The octets that digits stand for. The bits of the last digit that belong to no octet must be
clear. -/
def octets? : List Nat → Option (List UInt8)
  | a :: b :: c :: d :: rest =>
    let n := ((a * 64 + b) * 64 + c) * 64 + d
    (octets? rest).map fun octets =>
      UInt8.ofNat (n / 65536) :: UInt8.ofNat (n / 256) :: UInt8.ofNat n :: octets
  | [a, b, c] =>
    let n := (a * 64 + b) * 64 + c
    if n % 4 = 0 then some [UInt8.ofNat (n / 1024), UInt8.ofNat (n / 4)] else none
  | [a, b] =>
    let n := a * 64 + b
    if n % 16 = 0 then some [UInt8.ofNat (n / 16)] else none
  | [_] => none
  | [] => some []

def decode? (s : String) : Option (List UInt8) := do
  octets? (← s.toList.mapM value?)

/-! ### Digits -/

theorem value?_digit : ∀ n < 64, value? (digit n) = some n := by decide

theorem isSafe_digit : ∀ n < 64, (digit n).isAlphanum ∨ digit n = '-' ∨ digit n = '_' := by decide

theorem isLetter_digit : ∀ n < 32,
    ('A' ≤ digit n ∧ digit n ≤ 'Z') ∨ ('a' ≤ digit n ∧ digit n ≤ 'f') := by decide

theorem mapM_value?_digit {ns : List Nat} (h : ∀ n ∈ ns, n < 64) :
    (ns.map digit).mapM value? = some ns := by
  induction ns with
  | nil => rfl
  | cons n rest ih =>
    have hrest := ih fun m hm => h m (List.mem_cons_of_mem n hm)
    rw [List.map_cons, List.mapM_cons, value?_digit n (h n List.mem_cons_self), hrest]
    rfl

theorem lt_of_mem_digits (octets : List UInt8) : ∀ n ∈ digits octets, n < 64 := by
  fun_induction digits octets with
  | case1 a b c rest n ih =>
    have ha := a.toNat_lt
    have hb := b.toNat_lt
    have hc := c.toNat_lt
    intro m hm
    simp only [List.mem_cons] at hm
    rcases hm with rfl | rfl | rfl | rfl | hm
    · omega
    · omega
    · omega
    · omega
    · exact ih m hm
  | case2 a b n =>
    have ha := a.toNat_lt
    have hb := b.toNat_lt
    intro m hm
    simp only [List.mem_cons, List.not_mem_nil, or_false] at hm
    omega
  | case3 a n =>
    have ha := a.toNat_lt
    intro m hm
    simp only [List.mem_cons, List.not_mem_nil, or_false] at hm
    omega
  | case4 => nofun

theorem length_digits (octets : List UInt8) :
    (digits octets).length = (4 * octets.length + 2) / 3 := by
  fun_induction digits octets with
  | case1 a b c rest n ih =>
    simp only [List.length_cons, ih]
    omega
  | case2 => simp
  | case3 => simp
  | case4 => rfl

theorem eq_ofNat_of_mod {a : UInt8} {n : Nat} (h : n % 256 = a.toNat) : UInt8.ofNat n = a := by
  apply UInt8.toNat_inj.1
  rw [UInt8.toNat_ofNat']
  omega

theorem octets?_digits (octets : List UInt8) : octets? (digits octets) = some octets := by
  fun_induction digits octets with
  | case1 a b c rest n ih =>
    have ha := a.toNat_lt
    have hb := b.toNat_lt
    have hc := c.toNat_lt
    have hn : ((n >>> 18 * 64 + (n >>> 12) % 64) * 64 + (n >>> 6) % 64) * 64 + n % 64 = n := by
      omega
    have hfirst : UInt8.ofNat (n / 65536) = a := eq_ofNat_of_mod (by omega)
    have hsecond : UInt8.ofNat (n / 256) = b := eq_ofNat_of_mod (by omega)
    have hthird : UInt8.ofNat n = c := eq_ofNat_of_mod (by omega)
    rw [octets?, ih, hn, hfirst, hsecond, hthird]
    rfl
  | case2 a b n =>
    have ha := a.toNat_lt
    have hb := b.toNat_lt
    have hn : (n >>> 12 * 64 + (n >>> 6) % 64) * 64 + n % 64 = n := by omega
    have hfirst : UInt8.ofNat (n / 1024) = a := eq_ofNat_of_mod (by omega)
    have hsecond : UInt8.ofNat (n / 4) = b := eq_ofNat_of_mod (by omega)
    rw [octets?, hn, hfirst, hsecond, if_pos (by omega)]
  | case3 a n =>
    have ha := a.toNat_lt
    have hn : n >>> 6 * 64 + n % 64 = n := by omega
    have hfirst : UInt8.ofNat (n / 16) = a := eq_ofNat_of_mod (by omega)
    rw [octets?, hn, hfirst, if_pos (by omega)]
  | case4 => rfl

/-! ### Bits -/

/-- A bit of an identifier, counted from the first bit of its first octet. -/
def bit (u : Vector UInt8 16) (i : Fin 128) : Bool :=
  (u[i.val / 8]).toNat.testBit (7 - i.val % 8)

theorem eq_of_bit_eq {u v : Vector UInt8 16} (h : ∀ i, bit u i = bit v i) : u = v := by
  apply Vector.ext
  intro k hk
  apply UInt8.toNat_inj.1
  apply Nat.eq_of_testBit_eq
  intro j
  by_cases hj : j < 8
  · have hbit := h ⟨8 * k + (7 - j), by omega⟩
    have hoctet : (8 * k + (7 - j)) / 8 = k := by omega
    have hplace : 7 - (8 * k + (7 - j)) % 8 = j := by omega
    simpa only [bit, hoctet, hplace] using hbit
  · have hlarge : 2 ^ 8 ≤ 2 ^ j := Nat.pow_le_pow_right (by decide) (by omega)
    have hu := (u[k]).toNat_lt
    have hv := (v[k]).toNat_lt
    rw [Nat.testBit_lt_two_pow (by omega), Nat.testBit_lt_two_pow (by omega)]

/-- An identifier without its first bit. -/
def cleared (u : Vector UInt8 16) : Vector UInt8 16 := u.set 0 (u[0] &&& 0x7F)

theorem bit_cleared (u : Vector UInt8 16) (i : Fin 128) :
    bit (cleared u) i = (bit u i && decide (i ≠ 0)) := by
  have hmask : ∀ j, (0x7F : UInt8).toNat.testBit j = decide (j < 7) :=
    fun j => Nat.testBit_two_pow_sub_one 7 j
  by_cases hi : i.val / 8 = 0
  · have hzero : i ≠ 0 ↔ 7 - i.val % 8 < 7 := by
      rw [ne_eq, Fin.ext_iff]
      show ¬i.val = 0 ↔ _
      omega
    simp only [bit, cleared, hi, Vector.getElem_set_self, UInt8.toNat_and, Nat.testBit_and, hmask,
      hzero]
  · have hne : i ≠ 0 := by
      rintro rfl
      exact hi rfl
    simp only [bit, cleared, Vector.getElem_set_ne _ _ (Ne.symm hi), decide_true, hne, ne_eq,
      not_false_eq_true, Bool.and_true]

theorem clearFirstBit_toList (u : Vector UInt8 16) :
    clearFirstBit u.toList = (cleared u).toList := by
  have hset : ∀ (octets : List UInt8) (h : 0 < octets.length),
      clearFirstBit octets = octets.set 0 (octets[0] &&& 0x7F) := by
    intro octets h
    cases octets with
    | nil => exact absurd h (Nat.lt_irrefl 0)
    | cons a rest => rfl
  rw [hset u.toList (by simp), cleared, Vector.toList_set]
  simp

theorem toList_ofIdentifier (u : Vector UInt8 16) :
    (ofIdentifier u).toList = (digits (cleared u).toList).map digit := by
  rw [ofIdentifier, clearFirstBit_toList, String.toList_ofList]

theorem decode?_ofIdentifier (u : Vector UInt8 16) :
    decode? (ofIdentifier u) = some (cleared u).toList := by
  rw [decode?, toList_ofIdentifier, mapM_value?_digit (lt_of_mem_digits _)]
  exact octets?_digits _

theorem ofIdentifier_eq_iff (u v : Vector UInt8 16) :
    ofIdentifier u = ofIdentifier v ↔ cleared u = cleared v := by
  constructor
  · intro h
    have hdecode := congrArg decode? h
    rw [decode?_ofIdentifier, decode?_ofIdentifier] at hdecode
    exact Vector.toList_inj.1 (Option.some.inj hdecode)
  · intro h
    apply String.toList_inj.1
    rw [toList_ofIdentifier, toList_ofIdentifier, h]

theorem cleared_eq_iff (u v : Vector UInt8 16) :
    cleared u = cleared v ↔ ∀ i, i ≠ 0 → bit u i = bit v i := by
  constructor
  · intro h i hi
    have hbit := congrArg (bit · i) h
    simpa [bit_cleared, hi] using hbit
  · intro h
    apply eq_of_bit_eq
    intro i
    rw [bit_cleared, bit_cleared]
    by_cases hi : i = 0
    · simp [hi]
    · rw [h i hi]

/-- The first digit of octets that start with a clear bit is one of the first half. -/
theorem head?_digits {a : UInt8} (ha : a.toNat < 128) (rest : List UInt8) :
    ∃ n, (digits (a :: rest)).head? = some n ∧ n < 32 := by
  match rest with
  | [] =>
    refine ⟨_, rfl, ?_⟩
    omega
  | [b] =>
    have hb := b.toNat_lt
    refine ⟨_, rfl, ?_⟩
    omega
  | b :: c :: rest =>
    have hb := b.toNat_lt
    have hc := c.toNat_lt
    refine ⟨_, rfl, ?_⟩
    omega

theorem head?_ofIdentifier (u : Vector UInt8 16) : ∃ n < 32,
    (ofIdentifier u).toList.head? = some (digit n) := by
  have hlength : 0 < (cleared u).toList.length := by simp
  obtain ⟨a, rest, hoctets⟩ := List.exists_cons_of_length_pos hlength
  have ha : a = u[0] &&& 0x7F := by
    have hget : (cleared u).toList[0] = a := by simp [hoctets]
    rw [← hget]
    simp [cleared]
  have hlow : a.toNat < 128 := by
    rw [ha, UInt8.toNat_and]
    exact Nat.lt_of_le_of_lt Nat.and_le_right (by decide)
  obtain ⟨n, hhead, hn⟩ := head?_digits hlow rest
  refine ⟨n, hn, ?_⟩
  rw [toList_ofIdentifier, hoctets, List.head?_map, hhead]
  rfl

/-- **What a slug tells of its identifier:** all but the first bit, in characters that are safe in
addresses. -/
theorem slug_tells_all_but_first_bit (u : Vector UInt8 16) :
    (ofIdentifier u).length = 22
    ∧ (∀ c ∈ (ofIdentifier u).toList, c.isAlphanum ∨ c = '-' ∨ c = '_')
    ∧ (∃ c, (ofIdentifier u).toList.head? = some c
      ∧ (('A' ≤ c ∧ c ≤ 'Z') ∨ ('a' ≤ c ∧ c ≤ 'f')))
    ∧ (∃ w : Vector UInt8 16, decode? (ofIdentifier u) = some w.toList
      ∧ ∀ i, bit w i = (bit u i && decide (i ≠ 0)))
    ∧ ∀ v, ofIdentifier u = ofIdentifier v ↔ ∀ i, i ≠ 0 → bit u i = bit v i := by
  refine ⟨?_, ?_, ?_, ?_, ?_⟩
  · rw [← String.length_toList, toList_ofIdentifier, List.length_map, length_digits]
    simp
  · intro c hc
    rw [toList_ofIdentifier] at hc
    obtain ⟨n, hn, rfl⟩ := List.mem_map.1 hc
    exact isSafe_digit n (lt_of_mem_digits _ n hn)
  · obtain ⟨n, hn, hhead⟩ := head?_ofIdentifier u
    exact ⟨digit n, hhead, isLetter_digit n hn⟩
  · exact ⟨cleared u, decode?_ofIdentifier u, bit_cleared u⟩
  · intro v
    rw [ofIdentifier_eq_iff, cleared_eq_iff]

end ActionRegistry.Slug
