import StellarFeeTracker.General.Binary64
import Mathlib.Data.Rat.Floor
import Mathlib.Algebra.Order.Field.Rat
import Mathlib.Tactic.Common
import Mathlib.Tactic.Linarith

/-!
# Numeric casts

A float is modelled by the rational it stands for, so the casts out of `f64` are functions on
rationals.  They saturate, as Rust's do, and `as f64` is `Binary64.toFloat`.
-/

namespace StellarFeeTracker

open Binary64 (roundHalfEven)

/-- `u64::MAX`. -/
def u64Max : ℕ := 18446744073709551615

/-- `f64::EPSILON`. -/
def f64Epsilon : ℚ := 1 / 4503599627370496

/-- The `as u64` cast of a float. -/
def asU64 (q : ℚ) : ℕ := min ⌊q⌋.toNat u64Max

theorem asU64_mono {p q : ℚ} (h : p ≤ q) : asU64 p ≤ asU64 q :=
  min_le_min_right _ (Int.toNat_le_toNat (Int.floor_mono h))

/-- A value that fits is at most the cast of a float exactly when it is at most the float. -/
theorem le_asU64_iff {n : ℕ} (hn : n ≤ u64Max) {q : ℚ} (hq : 0 ≤ q) : n ≤ asU64 q ↔ (n : ℚ) ≤ q := by
  have hfloor : 0 ≤ ⌊q⌋ := Int.floor_nonneg.2 hq
  calc n ≤ asU64 q ↔ n ≤ ⌊q⌋.toNat := by rw [asU64, le_min_iff, and_iff_left hn]
    _ ↔ (n : ℤ) ≤ ⌊q⌋ := Int.le_toNat hfloor
    _ ↔ (n : ℚ) ≤ q := by rw [Int.le_floor, Int.cast_natCast]

theorem asU64_le {q : ℚ} (hq : 0 ≤ q) : (asU64 q : ℚ) ≤ q :=
  (le_asU64_iff (min_le_right _ _) hq).1 le_rfl

theorem asU64_natCast (n : ℕ) : asU64 n = min n u64Max := by
  rw [asU64, Int.floor_natCast, Int.toNat_natCast]

/-- `u32::MAX`. -/
def u32Max : ℕ := 4294967295

/-- The `as u32` cast of a float. -/
def asU32 (q : ℚ) : ℕ := min ⌊q⌋.toNat u32Max

/-- The integral part of a float, rounded towards zero. -/
def trunc (q : ℚ) : ℤ := if 0 ≤ q then ⌊q⌋ else ⌈q⌉

/-- `f64::round`: to the nearest integer, halves away from zero. -/
def roundHalfAway (q : ℚ) : ℤ := if 0 ≤ q then ⌊q + 1 / 2⌋ else ⌈q - 1 / 2⌉

theorem roundHalfAway_intCast (n : ℤ) : roundHalfAway n = n := by
  unfold roundHalfAway
  split_ifs
  · rw [Int.floor_eq_iff]
    constructor <;> linarith
  · rw [Int.ceil_eq_iff]
    constructor <;> linarith

/-- Rounding keeps the order, also from one sign to the other. -/
theorem roundHalfAway_mono {p q : ℚ} (h : p ≤ q) : roundHalfAway p ≤ roundHalfAway q := by
  unfold roundHalfAway
  split_ifs with hp hq hq
  · exact Int.floor_mono (add_le_add_left h _)
  · exact absurd (hp.trans h) hq
  · calc ⌈p - 1 / 2⌉ ≤ 0 := Int.ceil_le.2 (by push_cast; linarith)
      _ ≤ ⌊q + 1 / 2⌋ := Int.le_floor.2 (by push_cast; linarith)
  · exact Int.ceil_mono (sub_le_sub_right h _)

/-- `f64::clamp` to the unit interval. -/
def clampUnit (q : ℚ) : ℚ := max 0 (min q 1)

theorem clampUnit_mono {p q : ℚ} (h : p ≤ q) : clampUnit p ≤ clampUnit q :=
  max_le_max_left _ (min_le_min_right _ h)

theorem clampUnit_of_mem {p : ℚ} (h0 : 0 ≤ p) (h1 : p ≤ 1) : clampUnit p = p := by
  rw [clampUnit, min_eq_left h1, max_eq_right h0]

/-- `clamp` to a range whose bounds are in order. -/
def clamp {α : Type} [LinearOrder α] (x low high : α) : α := max low (min x high)

theorem clamp_mem {α : Type} [LinearOrder α] (x : α) {low high : α} (h : low ≤ high) :
    low ≤ clamp x low high ∧ clamp x low high ≤ high :=
  ⟨le_max_left _ _, max_le h (min_le_right _ _)⟩

theorem clamp_mono {α : Type} [LinearOrder α] {x y : α} (h : x ≤ y) (low high : α) :
    clamp x low high ≤ clamp y low high :=
  max_le_max_left _ (min_le_min_right _ h)

theorem clamp_of_mem {α : Type} [LinearOrder α] {x low high : α} (hlow : low ≤ x)
    (hhigh : x ≤ high) : clamp x low high = x := by
  rw [clamp, min_eq_left hhigh, max_eq_right hlow]

/-- The digits of a magnitude with two decimals, as `{:.2}` prints them. -/
def twoDecimals (q : ℚ) : String :=
  let hundredths := (roundHalfEven (|q| * 100)).toNat
  let cents := hundredths % 100
  (if q < 0 then "-" else "") ++ toString (hundredths / 100) ++ "." ++
    (if cents < 10 then "0" else "") ++ toString cents

/-- A whole number with its sign, as `{:+.0}` prints it. -/
def signedWhole (q : ℚ) : String :=
  (if q < 0 then "-" else "+") ++ toString (roundHalfEven |q|).toNat

/-- `str::parse::<u64>`: digits after an optional plus sign, when the value fits. -/
def parseU64 (s : String) : Option ℕ :=
  let digits := match s.toList with
    | '+' :: rest => rest
    | chars => chars
  if digits.isEmpty || !digits.all Char.isDigit then none
  else
    let value := digits.foldl (fun n c => 10 * n + (c.toNat - '0'.toNat)) 0
    if value ≤ u64Max then some value else none

theorem parseU64_le {s : String} {n : ℕ} (h : parseU64 s = some n) : n ≤ u64Max := by
  unfold parseU64 at h
  dsimp only at h
  split_ifs at h with hdigits hfits
  exact Option.some.inj h ▸ hfits

/-- A value that fits is read back from its text. -/
theorem parseU64_toString {n : ℕ} (h : n ≤ u64Max) : parseU64 (toString n) = some n := by
  have hdigits : ∀ c ∈ Nat.toDigits 10 n, c.isDigit = true :=
    fun c hc => Nat.isDigit_of_mem_toDigits (by decide) (by decide) hc
  have hvalue : (Nat.toDigits 10 n).foldl (fun n c => 10 * n + (c.toNat - '0'.toNat)) 0 = n :=
    Nat.ofDigitChars_toDigits (by decide) (by decide)
  obtain ⟨first, rest, htext⟩ := List.exists_cons_of_ne_nil (Nat.toDigits_ne_nil (n := n) (b := 10))
  have hplus : first ≠ '+' := by
    rintro rfl
    exact absurd (hdigits '+' (by rw [htext]; exact List.mem_cons_self)) (by decide)
  have hsign : (match (toString n).toList with | '+' :: rest => rest | chars => chars) =
      Nat.toDigits 10 n := by
    rw [Nat.toString_eq_ofList_toDigits, String.toList_ofList, htext]
    split
    · next heq => exact absurd (List.cons.inj heq).1 hplus
    · rfl
  unfold parseU64
  rw [hsign]
  have hall : ((Nat.toDigits 10 n).isEmpty || !(Nat.toDigits 10 n).all Char.isDigit) = false := by
    simpa [Nat.toDigits_ne_nil] using hdigits
  simp only [hall, hvalue, h, if_true]
  rfl

/-! ## Sums and casts of unsigned integers -/

/-- The sum of unsigned integers, if no addition overflows. -/
def sumU64 (values : List ℕ) : Option ℕ :=
  values.foldlM (fun sum value => if sum + value ≤ u64Max then some (sum + value) else none) 0

/-- No addition overflows when the whole sum fits. -/
theorem sumU64_eq {values : List ℕ} (h : values.sum ≤ u64Max) :
    sumU64 values = some values.sum := by
  have hfrom : ∀ start, start + values.sum ≤ u64Max →
      values.foldlM (fun sum value => if sum + value ≤ u64Max then some (sum + value) else none)
        start = some (start + values.sum) := by
    clear h
    induction values with
    | nil => exact fun _ _ => rfl
    | cons value values ih =>
      intro start hfits
      rw [List.sum_cons, ← Nat.add_assoc] at hfits ⊢
      rw [List.foldlM_cons, if_pos ((Nat.le_add_right _ _).trans hfits)]
      exact ih (start + value) hfits
  have hsum := hfrom 0 (by rwa [Nat.zero_add])
  rwa [Nat.zero_add] at hsum

/-- No addition overflows exactly when the whole sum fits. -/
theorem isSome_sumU64_iff (values : List ℕ) : (sumU64 values).isSome ↔ values.sum ≤ u64Max := by
  constructor
  · -- the sum so far fits after each addition
    have hfrom : ∀ start, start ≤ u64Max → (values.foldlM (fun sum value =>
        if sum + value ≤ u64Max then some (sum + value) else none) start).isSome →
          start + values.sum ≤ u64Max := by
      induction values with
      | nil => exact fun _ hstart _ => hstart
      | cons value values ih =>
        intro start _ hsome
        rw [List.foldlM_cons] at hsome
        split_ifs at hsome with hfits
        · rw [List.sum_cons, ← Nat.add_assoc]
          exact ih (start + value) hfits hsome
        · cases hsome
    intro h
    have hsum := hfrom 0 (Nat.zero_le _) h
    rwa [Nat.zero_add] at hsum
  · intro h
    rw [sumU64_eq h]
    rfl

/-- The sum where additions wrap around, as in a build without overflow checks. -/
def wrappingSumU64 (values : List ℕ) : ℕ := values.sum % (u64Max + 1)

theorem wrappingSumU64_of_sumU64 {values : List ℕ} {sum : ℕ} (h : sumU64 values = some sum) :
    wrappingSumU64 values = sum := by
  have hfits := (isSome_sumU64_iff values).1 (Option.isSome_of_eq_some h)
  rw [sumU64_eq hfits] at h
  rw [wrappingSumU64, Nat.mod_eq_of_lt (Nat.lt_succ_of_le hfits)]
  exact Option.some.inj h

/-- The `as f64` cast of an unsigned integer. -/
def asF64 (n : ℕ) : ℚ := Binary64.toFloat n

example : asF64 (2 ^ 53 + 1) = 2 ^ 53 ∧ asF64 (2 ^ 53 + 3) = 2 ^ 53 + 4 ∧ asF64 u64Max = 2 ^ 64 := by
  decide +kernel

/-! ## Texts of floats -/

/-- The number that the text of a float denotes, before it is rounded to a float: digits with a power
of ten, or one of the words for what is not finite. -/
inductive FloatLiteral where
  | finite (negative : Bool) (digits : ℕ) (exponent : ℤ)
  | infinite (negative : Bool)
  | nan
  deriving DecidableEq, Repr

/-- The value of digits, if there are any and nothing else. -/
def unsignedDigits (chars : List Char) : Option ℕ :=
  if chars.isEmpty || !chars.all Char.isDigit then none
  else some (chars.foldl (fun n c => 10 * n + (c.toNat - '0'.toNat)) 0)

/-- The exponent at the end of the text of a float. -/
def floatExponent : List Char → Option ℤ
  | [] => some 0
  | c :: rest =>
    if c = 'e' ∨ c = 'E' then
      match rest with
      | '-' :: digits => (unsignedDigits digits).map fun n => -(n : ℤ)
      | '+' :: digits => (unsignedDigits digits).map fun n => (n : ℤ)
      | digits => (unsignedDigits digits).map fun n => (n : ℤ)
    else none

/-- The text of a float behind its sign. -/
def unsignedFloat (negative : Bool) (chars : List Char) : Option FloatLiteral :=
  let word := String.ofList (chars.map Char.toLower)
  if word = "inf" ∨ word = "infinity" then some (.infinite negative)
  else if word = "nan" then some .nan
  else
    let whole := chars.takeWhile Char.isDigit
    let (fraction, rest) := match chars.dropWhile Char.isDigit with
      | '.' :: rest => (rest.takeWhile Char.isDigit, rest.dropWhile Char.isDigit)
      | rest => ([], rest)
    do
      let digits ← unsignedDigits (whole ++ fraction)
      let exponent ← floatExponent rest
      return .finite negative digits (exponent - fraction.length)

/-- `str::parse::<f64>`, without the rounding: a number with a fraction and an exponent, infinity or
not a number, after an optional sign. -/
def parseF64 (s : String) : Option FloatLiteral :=
  match s.toList with
  | '-' :: rest => unsignedFloat true rest
  | '+' :: rest => unsignedFloat false rest
  | chars => unsignedFloat false chars

example : ["250.75", ".5e-3", "-Infinity", "NaN"].map parseF64 =
    [some (.finite false 25075 (-2)), some (.finite false 5 (-4)), some (.infinite true),
      some .nan] := by
  decide

example : ["", ".", "1e", "+-1", "1,5", " 1"].all (fun s => parseF64 s = none) = true := by
  decide

end StellarFeeTracker
