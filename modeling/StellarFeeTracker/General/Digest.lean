import Mathlib.Data.Nat.Digits.Defs
import Mathlib.Logic.Function.Basic

/-!
# Digests

FNV-1a over words of any width.  The prime has an inverse, so every byte is absorbed by an injective
step, and two texts with one end have the same digest exactly when they have it without that end
(`fnv1a_append_inj`).  Two texts of one length that differ in one byte never have the same digest
(`fnv1a_ne_of_differences`).  A digest is written in hexadecimal digits, without zeros in front of it.
-/

namespace Digest

/-! ## Lists that differ in one place -/

section Differences

variable {α : Type*} [DecidableEq α]

/-- The number of places where two lists of one length differ. -/
def differences (l l' : List α) : ℕ := (l.zip l').countP fun p => p.1 ≠ p.2

theorem differences_cons (a a' : α) (l l' : List α) :
    differences (a :: l) (a' :: l') = differences l l' + if a = a' then 0 else 1 := by
  unfold differences
  rw [List.zip_cons_cons, List.countP_cons]
  by_cases h : a = a' <;> simp [h]

theorem eq_of_differences_eq_zero {l l' : List α} (hlength : l.length = l'.length)
    (h : differences l l' = 0) : l = l' := by
  induction l generalizing l' with
  | nil => exact (List.eq_nil_of_length_eq_zero hlength.symm).symm
  | cons a l ih =>
    cases l' with
    | nil => cases hlength
    | cons a' l' =>
      rw [differences_cons] at h
      obtain ⟨hrest, hfirst⟩ := Nat.add_eq_zero_iff.1 h
      have hsame : a = a' := by
        by_contra hne
        rw [if_neg hne] at hfirst
        cases hfirst
      rw [hsame, ih (Nat.succ_inj.1 hlength) hrest]

/-- Around the place where they differ, the lists are the same. -/
theorem exists_split_of_differences_eq_one {l l' : List α} (hlength : l.length = l'.length)
    (h : differences l l' = 1) :
    ∃ front a a' back, a ≠ a' ∧ l = front ++ a :: back ∧ l' = front ++ a' :: back := by
  induction l generalizing l' with
  | nil => cases h
  | cons a l ih =>
    cases l' with
    | nil => cases hlength
    | cons a' l' =>
      have hlength := Nat.succ_inj.1 hlength
      rw [differences_cons] at h
      by_cases hsame : a = a'
      · rw [if_pos hsame] at h
        obtain ⟨front, b, b', back, hne, rfl, rfl⟩ := ih hlength h
        exact ⟨a :: front, b, b', back, hne, rfl, by rw [hsame]; rfl⟩
      · rw [if_neg hsame] at h
        have hrest := eq_of_differences_eq_zero hlength (Nat.succ_inj.1 h)
        exact ⟨[], a, a', l, hsame, rfl, by rw [hrest]; rfl⟩

end Differences

/-! ## FNV-1a -/

section Fnv

variable {w : ℕ}

/-- The state after one more byte. -/
def absorb (prime state : BitVec w) (byte : UInt8) : BitVec w :=
  (state ^^^ BitVec.ofNat w byte.toNat) * prime

def fnv1a (offset prime : BitVec w) (bytes : List UInt8) : BitVec w :=
  bytes.foldl (absorb prime) offset

variable {offset prime inverse : BitVec w}

theorem mul_prime_injective (hinverse : prime * inverse = 1#w) :
    Function.Injective fun state : BitVec w => state * prime := by
  intro state state' h
  have hmul := congrArg (· * inverse) h
  dsimp only at hmul
  rwa [BitVec.mul_assoc, BitVec.mul_assoc, hinverse, BitVec.mul_one, BitVec.mul_one] at hmul

theorem absorb_injective (hinverse : prime * inverse = 1#w) (byte : UInt8) :
    Function.Injective fun state => absorb prime state byte := by
  intro state state' h
  exact (BitVec.xor_left_inj _).1 (mul_prime_injective hinverse h)

/-- From one state, each byte leads to a state of its own. -/
theorem absorb_byte_injective (hw : 8 ≤ w) (hinverse : prime * inverse = 1#w) (state : BitVec w) :
    Function.Injective (absorb prime state) := by
  intro byte byte' h
  have hfits : ∀ b : UInt8, b.toNat < 2 ^ w := fun b =>
    b.toNat_lt.trans_le (Nat.pow_le_pow_right (by decide) hw)
  have hword := (BitVec.xor_right_inj _).1 (mul_prime_injective hinverse h)
  have hnat := congrArg BitVec.toNat hword
  rw [BitVec.toNat_ofNat, BitVec.toNat_ofNat, Nat.mod_eq_of_lt (hfits byte),
    Nat.mod_eq_of_lt (hfits byte')] at hnat
  exact UInt8.toNat_inj.1 hnat

theorem foldl_absorb_injective (hinverse : prime * inverse = 1#w) (bytes : List UInt8) :
    Function.Injective fun state => bytes.foldl (absorb prime) state := by
  induction bytes with
  | nil => exact fun _ _ h => h
  | cons byte bytes ih => exact ih.comp (absorb_injective hinverse byte)

/-- The end that two texts share does not matter. -/
theorem fnv1a_append_inj (hinverse : prime * inverse = 1#w) (front front' back : List UInt8) :
    fnv1a offset prime (front ++ back) = fnv1a offset prime (front' ++ back) ↔
      fnv1a offset prime front = fnv1a offset prime front' := by
  unfold fnv1a
  rw [List.foldl_append, List.foldl_append]
  exact (foldl_absorb_injective hinverse back).eq_iff

/-- A byte in the middle of a text determines the digest, given the rest. -/
theorem fnv1a_replace_inj (hw : 8 ≤ w) (hinverse : prime * inverse = 1#w)
    (front back : List UInt8) (byte byte' : UInt8) :
    fnv1a offset prime (front ++ byte :: back) = fnv1a offset prime (front ++ byte' :: back) ↔
      byte = byte' := by
  have hlast : ∀ b, fnv1a offset prime (front ++ [b]) =
      absorb prime (fnv1a offset prime front) b := by
    intro b
    rw [fnv1a, List.foldl_append]
    rfl
  rw [List.append_cons front byte, List.append_cons front byte', fnv1a_append_inj hinverse, hlast,
    hlast]
  exact (absorb_byte_injective hw hinverse _).eq_iff

/-- Two texts of one length that differ in one byte have different digests. -/
theorem fnv1a_ne_of_differences (hw : 8 ≤ w) (hinverse : prime * inverse = 1#w)
    {text text' : List UInt8} (hlength : text.length = text'.length)
    (h : differences text text' = 1) :
    fnv1a offset prime text ≠ fnv1a offset prime text' := by
  obtain ⟨front, byte, byte', back, hne, rfl, rfl⟩ := exists_split_of_differences_eq_one hlength h
  exact fun hdigest => hne ((fnv1a_replace_inj hw hinverse front back byte byte').1 hdigest)

end Fnv

/-! ## Hexadecimal texts -/

/-- The hexadecimal digits of a number. -/
def hex (n : ℕ) : List Char := Nat.toDigits 16 n

theorem digitChar_injective :
    ∀ m < 16, ∀ n < 16, m.digitChar = n.digitChar → m = n := by decide

theorem hex_of_lt {n : ℕ} (h : n < 16) : hex n = [n.digitChar] := Nat.toDigits_of_lt_base h

theorem hex_of_le {n : ℕ} (h : 16 ≤ n) : hex n = hex (n / 16) ++ [(n % 16).digitChar] :=
  Nat.toDigits_of_base_le (by decide) h

/-- The last digit and those before it determine a number. -/
theorem hex_injective : Function.Injective hex := by
  intro m
  induction m using Nat.strongRecOn with
  | ind m ih =>
    intro n h
    have hpos : ∀ k, 0 < (hex k).length := fun k => Nat.length_toDigits_pos
    have hlength := congrArg List.length h
    rcases Nat.lt_or_ge m 16 with hm | hm
    · rcases Nat.lt_or_ge n 16 with hn | hn
      · rw [hex_of_lt hm, hex_of_lt hn] at h
        exact digitChar_injective m hm n hn (List.singleton_inj.1 h)
      · have := hpos (n / 16)
        rw [hex_of_lt hm, hex_of_le hn, List.length_append, List.length_singleton,
          List.length_singleton] at hlength
        omega
    · rcases Nat.lt_or_ge n 16 with hn | hn
      · have := hpos (m / 16)
        rw [hex_of_le hm, hex_of_lt hn, List.length_append, List.length_singleton,
          List.length_singleton] at hlength
        omega
      · rw [hex_of_le hm, hex_of_le hn] at h
        obtain ⟨hfront, hlast⟩ := List.append_inj' h rfl
        have hdiv := ih (m / 16) (Nat.div_lt_self (by omega) (by decide)) hfront
        have hmod := digitChar_injective _ (Nat.mod_lt m (by decide)) _ (Nat.mod_lt n (by decide))
          (List.singleton_inj.1 hlast)
        omega

theorem mem_hex {n : ℕ} {c : Char} (h : c ∈ hex n) : ∃ d < 16, c = d.digitChar := by
  induction n using Nat.strongRecOn with
  | ind n ih =>
    rcases Nat.lt_or_ge n 16 with hn | hn
    · rw [hex_of_lt hn, List.mem_singleton] at h
      exact ⟨n, hn, h⟩
    · rw [hex_of_le hn, List.mem_append, List.mem_singleton] at h
      rcases h with h | rfl
      · exact ih (n / 16) (Nat.div_lt_self (by omega) (by decide)) h
      · exact ⟨n % 16, Nat.mod_lt n (by decide), rfl⟩

end Digest
