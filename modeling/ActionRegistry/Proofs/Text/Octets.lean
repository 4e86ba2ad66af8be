import Mathlib.Data.List.Lex

/-!
# The octets of texts

Texts are compared character by character. Their octets in UTF-8 compare in the same way: the first
octet tells how many there are, more octets stand for greater characters, and within one length the
octets are the digits of the character. The octets of a character beyond ASCII are all above those
of ASCII.
-/

namespace ActionRegistry.Text

def octets (s : String) : List UInt8 := s.toUTF8.data.toList

theorem octets_eq (s : String) : octets s = s.toList.flatMap String.utf8EncodeChar := by
  have hchars : ∀ cs : List Char,
      cs.utf8Encode.data.toList = cs.flatMap String.utf8EncodeChar := by
    intro cs
    induction cs with
    | nil => rfl
    | cons c rest ih =>
      rw [List.utf8Encode_cons, ByteArray.data_append, Array.toList_append, ih,
        List.utf8Encode_singleton, List.toList_data_toByteArray, List.flatMap_cons]
  rw [octets, String.toUTF8_eq_toByteArray, ← String.utf8Encode_toList, hchars]

theorem ofNat_lt_ofNat {m n : Nat} (hm : m < 256) (hn : n < 256) :
    UInt8.ofNat m < UInt8.ofNat n ↔ m < n := by
  rw [UInt8.lt_iff_toNat_lt, UInt8.toNat_ofNat', UInt8.toNat_ofNat']
  omega

theorem ofNat_eq_ofNat {m n : Nat} (hm : m < 256) (hn : n < 256) :
    UInt8.ofNat m = UInt8.ofNat n ↔ m = n := by
  rw [← UInt8.toNat_inj, UInt8.toNat_ofNat', UInt8.toNat_ofNat']
  omega

theorem toNat_lt (c : Char) : c.toNat < 0x110000 := by
  rcases c.valid with h | h
  · change c.toNat < _ at h
    omega
  · exact h.2

/-- The octets of a character, by the number of them. -/
theorem encode_cases (c : Char) :
    (c.toNat < 0x80 ∧ String.utf8EncodeChar c = [.ofNat c.toNat])
    ∨ (0x80 ≤ c.toNat ∧ c.toNat < 0x800 ∧ String.utf8EncodeChar c
      = [.ofNat (c.toNat / 64 + 192), .ofNat (c.toNat % 64 + 128)])
    ∨ (0x800 ≤ c.toNat ∧ c.toNat < 0x10000 ∧ String.utf8EncodeChar c
      = [.ofNat (c.toNat / 4096 + 224), .ofNat (c.toNat / 64 % 64 + 128),
        .ofNat (c.toNat % 64 + 128)])
    ∨ (0x10000 ≤ c.toNat ∧ String.utf8EncodeChar c
      = [.ofNat (c.toNat / 262144 + 240), .ofNat (c.toNat / 4096 % 64 + 128),
        .ofNat (c.toNat / 64 % 64 + 128), .ofNat (c.toNat % 64 + 128)]) := by
  have hc := toNat_lt c
  have hval : c.val.toNat = c.toNat := rfl
  rw [String.utf8EncodeChar, hval]
  by_cases h1 : c.toNat ≤ 127
  · rw [if_pos h1]
    exact .inl ⟨by omega, rfl⟩
  · by_cases h2 : c.toNat ≤ 2047
    · have hfirst : c.toNat / 64 % 32 = c.toNat / 64 := by omega
      rw [if_neg h1, if_pos h2, hfirst]
      exact .inr (.inl ⟨by omega, by omega, rfl⟩)
    · by_cases h3 : c.toNat ≤ 65535
      · have hfirst : c.toNat / 4096 % 16 = c.toNat / 4096 := by omega
        rw [if_neg h1, if_neg h2, if_pos h3, hfirst]
        exact .inr (.inr (.inl ⟨by omega, by omega, rfl⟩))
      · have hfirst : c.toNat / 262144 % 8 = c.toNat / 262144 := by omega
        rw [if_neg h1, if_neg h2, if_neg h3, hfirst]
        exact .inr (.inr (.inr ⟨by omega, rfl⟩))

/-! ### Order -/

/-- The smaller of two numbers has the smaller digit in base 64 where the digits first differ. -/
theorem lt_by_digits {m n : Nat} (h : m < n) :
    m / 262144 < n / 262144 ∨ m / 262144 = n / 262144
      ∧ (m / 4096 % 64 < n / 4096 % 64 ∨ m / 4096 % 64 = n / 4096 % 64
        ∧ (m / 64 % 64 < n / 64 % 64 ∨ m / 64 % 64 = n / 64 % 64 ∧ m % 64 < n % 64)) := by
  have hstep : ∀ {m n : Nat}, m < n → m / 64 < n / 64 ∨ m / 64 = n / 64 ∧ m % 64 < n % 64 := by
    omega
  have hdigits : ∀ n : Nat, n / 64 / 64 = n / 4096 ∧ n / 4096 / 64 = n / 262144 := by omega
  rcases hstep h with h64 | ⟨heq, hlast⟩
  · rcases hstep h64 with h4096 | ⟨heq, hthird⟩
    · rw [(hdigits m).1, (hdigits n).1] at h4096
      rcases hstep h4096 with hfirst | ⟨heq, hsecond⟩
      · rw [(hdigits m).2, (hdigits n).2] at hfirst
        exact .inl hfirst
      · rw [(hdigits m).2, (hdigits n).2] at heq
        exact .inr ⟨heq, .inl hsecond⟩
    · exact .inr ⟨by omega, .inr ⟨by omega, .inl hthird⟩⟩
  · exact .inr ⟨by omega, .inr ⟨by omega, .inr ⟨by omega, hlast⟩⟩⟩

/-- The octets of a smaller character come first, whatever follows. -/
theorem encode_append_lt {a b : Char} (h : a < b) (xs ys : List UInt8) :
    String.utf8EncodeChar a ++ xs < String.utf8EncodeChar b ++ ys := by
  have hlt : a.toNat < b.toNat := h
  have ha := toNat_lt a
  have hb := toNat_lt b
  have hdigits := lt_by_digits hlt
  rcases encode_cases a with ⟨_, ea⟩ | ⟨_, _, ea⟩ | ⟨_, _, ea⟩ | ⟨_, ea⟩ <;>
    rcases encode_cases b with ⟨_, eb⟩ | ⟨_, _, eb⟩ | ⟨_, _, eb⟩ | ⟨_, eb⟩
  all_goals
    rw [ea, eb]
    simp (disch := omega) only [List.cons_append, List.nil_append, List.cons_lt_cons_iff,
      ofNat_lt_ofNat, ofNat_eq_ofNat]
    omega

theorem append_lt_append {α : Type} [LT α] (zs : List α) {xs ys : List α} (h : xs < ys) :
    zs ++ xs < zs ++ ys := by
  induction zs with
  | nil => exact h
  | cons z zs ih => exact List.cons_lt_cons_iff.2 (.inr ⟨rfl, ih⟩)

/-- **Texts are in the order of their octets.** -/
theorem octets_lt {s t : String} (h : s < t) : octets s < octets t := by
  have hchars : ∀ cs ds : List Char, cs < ds →
      cs.flatMap String.utf8EncodeChar < ds.flatMap String.utf8EncodeChar := by
    intro cs
    induction cs with
    | nil =>
      intro ds hlt
      cases ds with
      | nil => exact absurd hlt (List.lt_irrefl _)
      | cons d ds =>
        obtain ⟨x, xs, hx⟩ := List.exists_cons_of_ne_nil (String.utf8EncodeChar_ne_nil (c := d))
        rw [List.flatMap_nil, List.flatMap_cons, hx]
        exact List.nil_lt_cons x _
    | cons c cs ih =>
      intro ds hlt
      cases ds with
      | nil => exact absurd hlt (List.not_lt_nil _)
      | cons d ds =>
        rw [List.flatMap_cons, List.flatMap_cons]
        rcases List.cons_lt_cons_iff.1 hlt with hcd | ⟨rfl, hrest⟩
        · exact encode_append_lt hcd _ _
        · exact append_lt_append _ (ih ds hrest)
  rw [octets_eq, octets_eq]
  exact hchars _ _ (String.lt_iff.1 h)

/-! ### Octets of ASCII -/

theorem head?_octets_ascii {a : Char} (ha : a.toNat < 0x80) (cs : List Char) :
    (cs.flatMap String.utf8EncodeChar).head? = some (.ofNat a.toNat) ↔ cs.head? = some a := by
  cases cs with
  | nil => simp
  | cons c rest =>
    have hc := toNat_lt c
    have hsame : c.toNat = a.toNat ↔ c = a := Char.toNat_inj
    rw [List.flatMap_cons, List.head?_cons, Option.some_inj, ← hsame]
    rcases encode_cases c with ⟨_, e⟩ | ⟨_, _, e⟩ | ⟨_, _, e⟩ | ⟨_, e⟩
    · rw [e, List.cons_append, List.head?_cons, Option.some_inj]
      exact ofNat_eq_ofNat (by omega) (by omega)
    all_goals
      rw [e, List.cons_append, List.head?_cons, Option.some_inj,
        ofNat_eq_ofNat (by omega) (by omega)]
      omega

theorem octets_second_ascii {a : Char} (ha : a.toNat < 0x80) (s : String) :
    (octets s)[1]? = some (.ofNat a.toNat)
      ↔ ∃ c rest, s.toList = c :: a :: rest ∧ c.toNat < 0x80 := by
  rw [octets_eq]
  cases s.toList with
  | nil => simp
  | cons c rest =>
    have hrest : (∃ c' rest', c :: rest = c' :: a :: rest' ∧ c'.toNat < 0x80)
        ↔ rest.head? = some a ∧ c.toNat < 0x80 := by
      cases rest with
      | nil => simp
      | cons d rest => simp [and_assoc]
    rw [hrest, List.flatMap_cons]
    have hc := toNat_lt c
    rcases encode_cases c with ⟨hone, e⟩ | ⟨hmore, _, e⟩ | ⟨hmore, _, e⟩ | ⟨hmore, e⟩
    · rw [e, List.cons_append, List.nil_append, List.getElem?_cons_succ, ← List.head?_eq_getElem?,
        head?_octets_ascii ha]
      simp [hone]
    all_goals
      rw [e, List.cons_append, List.cons_append, List.getElem?_cons_succ, List.getElem?_cons_zero,
        Option.some_inj, ofNat_eq_ofNat (by omega) (by omega)]
      omega

end ActionRegistry.Text
