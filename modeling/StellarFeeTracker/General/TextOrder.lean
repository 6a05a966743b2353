import Mathlib.Data.String.Basic
import Mathlib.Tactic.Common

/-!
# Texts that order like numbers

A family of texts of one width that grows with the number is `FixedWidth`.  The decimal digits of a
width are such a family, and putting the text of a high part before that of a low part makes another
one, so the order of a text made of fields is that of what the fields say.

`truncated_lt` is for a last field without a fixed width: digits that lost zeros at their end, before
a character that comes before all digits.
-/

namespace TextOrder

/-! ## Lists of characters -/

section Lists

variable {α : Type*} [LinearOrder α]

theorem append_lt_append {a a' b b' : List α} (hlength : a.length = a'.length)
    (h : a < a' ∨ a = a' ∧ b < b') : a ++ b < a' ++ b' := by
  induction a generalizing a' with
  | nil =>
    obtain rfl : a' = [] := List.length_eq_zero_iff.1 hlength.symm
    rcases h with h | ⟨-, h⟩
    · exact absurd h (lt_irrefl _)
    · exact h
  | cons c a ih =>
    cases a' with
    | nil => cases hlength
    | cons c' a' =>
      have hlength' : a.length = a'.length := Nat.succ_injective hlength
      rw [List.cons_append, List.cons_append, List.cons_lt_cons_iff]
      rcases h with h | ⟨h, hb⟩
      · rcases List.cons_lt_cons_iff.1 h with hlt | ⟨rfl, hlt⟩
        · exact .inl hlt
        · exact .inr ⟨rfl, ih hlength' (.inl hlt)⟩
      · obtain ⟨rfl, rfl⟩ := List.cons_eq_cons.1 h
        exact .inr ⟨rfl, ih rfl (.inr ⟨rfl, hb⟩)⟩

/-- No list of one length comes before the list of least elements. -/
theorem not_lt_of_forall_eq {zero : α} {digits digits' : List α}
    (hlength : digits.length = digits'.length) (hle : ∀ d ∈ digits, zero ≤ d)
    (hzero : ∀ d ∈ digits', d = zero) : ¬ digits < digits' := by
  induction digits generalizing digits' with
  | nil =>
    obtain rfl : digits' = [] := List.length_eq_zero_iff.1 hlength.symm
    exact lt_irrefl _
  | cons d digits ih =>
    cases digits' with
    | nil => cases hlength
    | cons d' digits' =>
      rw [List.forall_mem_cons] at hle hzero
      intro h
      rcases List.cons_lt_cons_iff.1 h with hlt | ⟨-, hlt⟩
      · rw [hzero.1] at hlt
        exact absurd hle.1 (not_le.2 hlt)
      · exact ih (Nat.succ_injective hlength) hle.2 hzero.2 hlt

/-- Digits that lost zeros at their end order like the digits, when what follows them comes before
every digit. -/
theorem truncated_lt {zero stop : α} {digits digits' rest rest' : List α} {k k' : ℕ}
    (hlength : digits.length = digits'.length) (h : digits < digits')
    (hle : ∀ d ∈ digits, zero ≤ d) (hstop : ∀ d ∈ digits', stop < d)
    (hzero : ∀ d ∈ digits'.drop k', d = zero) :
    digits.take k ++ stop :: rest < digits'.take k' ++ stop :: rest' := by
  induction digits generalizing digits' k k' with
  | nil =>
    obtain rfl : digits' = [] := List.length_eq_zero_iff.1 hlength.symm
    exact absurd h (lt_irrefl _)
  | cons d digits ih =>
    cases digits' with
    | nil => cases hlength
    | cons d' digits' =>
      cases k' with
      | zero => exact absurd h (not_lt_of_forall_eq hlength hle hzero)
      | succ k' =>
        rw [List.forall_mem_cons] at hle hstop
        cases k with
        | zero => exact List.cons_lt_cons_iff.2 (.inl hstop.1)
        | succ k =>
          refine List.cons_lt_cons_iff.2 ?_
          rcases List.cons_lt_cons_iff.1 h with hlt | ⟨heq, hlt⟩
          · exact .inl hlt
          · exact .inr ⟨heq, ih (Nat.succ_injective hlength) hlt hle.2 hstop.2 hzero⟩

end Lists

/-! ## Fields of a fixed width -/

/-- The texts of the numbers below a bound are of one width and order like the numbers. -/
structure FixedWidth (encode : ℕ → List Char) (bound width : ℕ) : Prop where
  length_eq : ∀ n < bound, (encode n).length = width
  lt : ∀ m n, m < n → n < bound → encode m < encode n

section FixedWidth

variable {encode : ℕ → List Char} {bound width : ℕ}

theorem FixedWidth.cons (h : FixedWidth encode bound width) (c : Char) :
    FixedWidth (fun n => c :: encode n) bound (width + 1) where
  length_eq n hn := by rw [List.length_cons, h.length_eq n hn]
  lt m n hmn hn := List.cons_lt_cons_iff.2 (.inr ⟨rfl, h.lt m n hmn hn⟩)

/-- The text of a high part before that of a low part. -/
theorem FixedWidth.append {encodeLow : ℕ → ℕ → List Char} {high low boundLow : ℕ → ℕ}
    {boundHigh widthHigh widthLow : ℕ} (hHigh : FixedWidth encode boundHigh widthHigh)
    (hLow : ∀ i < boundHigh, FixedWidth (encodeLow i) (boundLow i) widthLow)
    (hhigh : ∀ n < bound, high n < boundHigh) (hlow : ∀ n < bound, low n < boundLow (high n))
    (hlex : ∀ m n, m < n → n < bound → high m < high n ∨ high m = high n ∧ low m < low n) :
    FixedWidth (fun n => encode (high n) ++ encodeLow (high n) (low n)) bound
      (widthHigh + widthLow) where
  length_eq n hn := by
    rw [List.length_append, hHigh.length_eq _ (hhigh n hn),
      (hLow _ (hhigh n hn)).length_eq _ (hlow n hn)]
  lt m n hmn hn := by
    have hm := hmn.trans hn
    refine append_lt_append ?_ ?_
    · rw [hHigh.length_eq _ (hhigh m hm), hHigh.length_eq _ (hhigh n hn)]
    · rcases hlex m n hmn hn with hlt | ⟨heq, hlt⟩
      · exact .inl (hHigh.lt _ _ hlt (hhigh n hn))
      · rw [heq]
        exact .inr ⟨rfl, (hLow _ (hhigh n hn)).lt _ _ hlt (hlow n hn)⟩

/-- Numbers counted from another one. -/
theorem FixedWidth.shift (h : FixedWidth encode bound width) (k : ℕ) {bound' : ℕ}
    (hbound : bound' + k ≤ bound) : FixedWidth (fun n => encode (n + k)) bound' width where
  length_eq n hn := h.length_eq _ (by omega)
  lt m n hmn hn := h.lt _ _ (by omega) (by omega)

end FixedWidth

/-- The quotient and the remainder of a number order like the number. -/
theorem div_mod_lex {b m n : ℕ} (h : m < n) :
    m / b < n / b ∨ m / b = n / b ∧ m % b < n % b := by
  have hm := Nat.div_add_mod m b
  have hn := Nat.div_add_mod n b
  rcases (Nat.div_le_div_right (c := b) h.le).lt_or_eq with hlt | heq
  · exact .inl hlt
  · refine .inr ⟨heq, ?_⟩
    rw [heq] at hm
    omega

/-! ## Decimal digits -/

/-- The decimal digits of a number below `10 ^ width`. -/
def digits : ℕ → ℕ → List Char
  | 0, _ => []
  | width + 1, n => (n / 10 ^ width).digitChar :: digits width (n % 10 ^ width)

theorem digitChar_lt {m n : ℕ} (hmn : m < n) (hn : n < 10) : m.digitChar < n.digitChar := by
  have hall : ∀ n < 10, ∀ m < n, Nat.digitChar m < Nat.digitChar n := by decide
  exact hall n hn m hmn

theorem fixedWidth_digits (width : ℕ) : FixedWidth (digits width) (10 ^ width) width := by
  induction width with
  | zero => exact ⟨fun _ _ => rfl, fun m n hmn hn => by omega⟩
  | succ width ih =>
    have hchar : FixedWidth (fun d => [d.digitChar]) 10 1 :=
      ⟨fun _ _ => rfl, fun m n hmn hn => List.cons_lt_cons_iff.2 (.inl (digitChar_lt hmn hn))⟩
    have hpos : 0 < 10 ^ width := Nat.pow_pos (by decide)
    have happend : FixedWidth
        (fun n => [(n / 10 ^ width).digitChar] ++ digits width (n % 10 ^ width))
        (10 ^ (width + 1)) (1 + width) :=
      hchar.append (fun _ _ => ih)
        (fun n hn => Nat.div_lt_of_lt_mul (by rwa [← Nat.pow_succ]))
        (fun n _ => Nat.mod_lt n hpos) fun m n hmn _ => div_mod_lex hmn
    rw [Nat.add_comm 1 width] at happend
    exact happend

theorem zero_le_of_mem_digits {width n : ℕ} (hn : n < 10 ^ width) :
    ∀ c ∈ digits width n, '0' ≤ c := by
  induction width generalizing n with
  | zero => simp [digits]
  | succ width ih =>
    have hall : ∀ d < 10, '0' ≤ Nat.digitChar d := by decide
    rw [digits, List.forall_mem_cons]
    exact ⟨hall _ (Nat.div_lt_of_lt_mul (by rwa [← Nat.pow_succ])),
      ih (Nat.mod_lt n (Nat.pow_pos (by decide)))⟩

theorem eq_zero_of_mem_digits_zero {width : ℕ} : ∀ c ∈ digits width 0, c = '0' := by
  induction width with
  | zero => simp [digits]
  | succ width ih =>
    rw [digits, List.forall_mem_cons, Nat.zero_div, Nat.zero_mod]
    exact ⟨rfl, ih⟩

/-- The digits of a number are those of its high part and those of its low part. -/
theorem digits_add {high low n : ℕ} (hn : n < 10 ^ (high + low)) :
    digits (high + low) n = digits high (n / 10 ^ low) ++ digits low (n % 10 ^ low) := by
  induction high generalizing n with
  | zero =>
    rw [Nat.zero_add] at hn ⊢
    rw [Nat.mod_eq_of_lt hn]
    rfl
  | succ high ih =>
    have hpow : 10 ^ (high + low) = 10 ^ low * 10 ^ high := by rw [Nat.add_comm, Nat.pow_add]
    have hmod : n % 10 ^ (high + low) < 10 ^ (high + low) :=
      Nat.mod_lt n (Nat.pow_pos (by decide))
    rw [Nat.succ_add, digits, ih hmod, digits, List.cons_append, Nat.div_div_eq_div_mul, hpow,
      Nat.mod_mul_right_div_self, Nat.mod_mul_right_mod]

/-- When the low part is zero, the digits of the high part are the first ones, and zeros follow. -/
theorem take_digits {high low n : ℕ} (hn : n < 10 ^ (high + low)) (hzero : n % 10 ^ low = 0) :
    (digits (high + low) n).take high = digits high (n / 10 ^ low) ∧
      ∀ c ∈ (digits (high + low) n).drop high, c = '0' := by
  have hpow : 10 ^ (high + low) = 10 ^ low * 10 ^ high := by rw [Nat.add_comm, Nat.pow_add]
  have hlength : (digits high (n / 10 ^ low)).length = high :=
    (fixedWidth_digits high).length_eq _ (Nat.div_lt_of_lt_mul (hpow ▸ hn))
  rw [digits_add hn, hzero, List.take_left' hlength, List.drop_left' hlength]
  exact ⟨rfl, eq_zero_of_mem_digits_zero⟩

end TextOrder
