import Mathlib.Data.List.Lex
import ApiPages.Text.Basic

/-! # The order of texts and of their bytes

Texts are ordered by their scalar values.  This is the order of their UTF-8 bytes (`le_iff_bytes_le`): a smaller
scalar value has the smaller byte where the encodings of the two first differ (`bytes_lt_of_lt`).  So the order
of texts is transitive, total and antisymmetric. -/

namespace ApiPages

namespace Text

/-- The UTF-8 bytes of a text. -/
def bytes (s : Text) : List UInt8 :=
  s.flatMap String.utf8EncodeChar

theorem bytes_cons (c : Char) (s : Text) : bytes (c :: s) = String.utf8EncodeChar c ++ bytes s :=
  List.flatMap_cons

theorem toNat_lt (c : Char) : c.toNat < 0x110000 := by
  have h := c.valid
  simp only [UInt32.isValidChar, Nat.isValidChar] at h
  unfold Char.toNat
  omega

/-- Of two numbers the smaller one has the smaller upper digits, or the same ones and a smaller last digit. -/
theorem digits_lt_of_lt (k : Nat) {m n : Nat} (h : m < n) :
    m / k < n / k ∨ m / k = n / k ∧ m % k < n % k := by
  rcases Nat.lt_or_eq_of_le (Nat.div_le_div_right (c := k) h.le) with hlt | heq
  · exact .inl hlt
  · refine .inr ⟨heq, ?_⟩
    have hm := Nat.div_add_mod m k
    have hn := Nat.div_add_mod n k
    rw [heq] at hm
    omega

/-- Encodings of four bytes compare by their digits. -/
theorem long_encoding_lt {m n : Nat} (h : m < n) (hn : n < 0x110000) (s t : List UInt8) :
    UInt8.ofNat (m / 262144 % 8 + 240) :: UInt8.ofNat (m / 4096 % 64 + 128) ::
        UInt8.ofNat (m / 64 % 64 + 128) :: UInt8.ofNat (m % 64 + 128) :: s <
      UInt8.ofNat (n / 262144 % 8 + 240) :: UInt8.ofNat (n / 4096 % 64 + 128) ::
        UInt8.ofNat (n / 64 % 64 + 128) :: UInt8.ofNat (n % 64 + 128) :: t := by
  simp only [List.cons_lt_cons_iff, UInt8.lt_iff_toNat_lt, ← UInt8.toNat_inj, UInt8.toNat_ofNat']
  rcases digits_lt_of_lt 262144 h with h | ⟨_, h⟩
  · omega
  · rcases digits_lt_of_lt 4096 h with h | ⟨_, h⟩
    · omega
    · rcases digits_lt_of_lt 64 h with h | ⟨_, h⟩ <;> omega

/-- The bytes of a smaller scalar value come first, whatever follows them. -/
theorem bytes_lt_of_lt {c d : Char} (h : c.toNat < d.toNat) (s t : Text) :
    bytes (c :: s) < bytes (d :: t) := by
  have hd := toNat_lt d
  unfold Char.toNat at h hd
  rw [bytes_cons, bytes_cons]
  simp only [String.utf8EncodeChar]
  by_cases hc : c.val.toNat ≤ 65535
  · -- A longer encoding has the greater lead byte.
    simp only [if_pos hc]
    split_ifs <;>
      simp only [List.cons_append, List.nil_append, List.cons_lt_cons_iff, UInt8.lt_iff_toNat_lt,
        ← UInt8.toNat_inj, UInt8.toNat_ofNat'] <;>
      omega
  · rw [if_neg (by omega), if_neg (by omega), if_neg (by omega), if_neg (by omega), if_neg (by omega),
      if_neg (by omega)]
    exact long_encoding_lt h hd (bytes s) (bytes t)

/-- Texts are ordered as their UTF-8 bytes are. -/
theorem le_iff_bytes_le (s t : Text) : le s t = true ↔ bytes s ≤ bytes t := by
  fun_induction le s t with
  | case1 t => simp [bytes]
  | case2 c s => simp [bytes]
  | case3 c s t ih =>
      rw [ih, bytes_cons, bytes_cons]
      constructor
      · exact List.append_left_le
      · intro h hlt
        exact h (List.append_left_lt hlt)
  | case4 c s d t hne =>
      have hval : c.toNat ≠ d.toNat := fun h => hne (Char.toNat_inj.mp h)
      rw [decide_eq_true_iff]
      constructor
      · intro h
        exact List.le_of_lt (bytes_lt_of_lt h s t)
      · intro h
        by_contra hlt
        exact h (bytes_lt_of_lt (by omega) t s)

theorem le_trans (s t u : Text) (hst : le s t = true) (htu : le t u = true) : le s u = true := by
  rw [le_iff_bytes_le] at hst htu ⊢
  exact List.le_trans hst htu

theorem le_total (s t : Text) : (le s t || le t s) = true := by
  rw [Bool.or_eq_true, le_iff_bytes_le, le_iff_bytes_le]
  exact List.le_total (bytes s) (bytes t)

theorem le_antisymm (s t : Text) (hst : le s t = true) (hts : le t s = true) : s = t := by
  fun_induction le s t with
  | case1 t =>
      cases t with
      | nil => rfl
      | cons d t => cases hts
  | case2 c s => cases hst
  | case3 c s t ih =>
      rw [le, if_pos rfl] at hts
      rw [ih hst hts]
  | case4 c s d t hne =>
      rw [le, if_neg (Ne.symm hne)] at hts
      rw [decide_eq_true_iff] at hst hts
      omega

end Text

end ApiPages
