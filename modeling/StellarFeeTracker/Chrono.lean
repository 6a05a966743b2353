import Mathlib.Algebra.Group.Nat.Defs
import Mathlib.Data.Int.Basic
import Mathlib.Tactic.Common

/-!
# Time

`DateTime<Utc>` and `Duration` are modelled by whole numbers of nanoseconds: since the Unix epoch
for an instant, signed for a duration.  `timestamp` and `num_seconds` round as the `chrono` crate
does, and the constructors that panic outside the range of the crate's types return `Except Panic`.
-/

namespace StellarFeeTracker

/-- An instant, in nanoseconds since the Unix epoch. -/
abbrev DateTime := ℤ

/-- A signed length of time, in nanoseconds. -/
abbrev Duration := ℤ

/-- A panic of the program. -/
inductive Panic where
  /-- `Duration::seconds` out of bounds. -/
  | durationOutOfBounds
  /-- `DateTime - TimeDelta` overflowed. -/
  | dateTimeOverflow
  deriving DecidableEq, Repr

/-- A sequence of steps succeeds when each of them does. -/
theorem exists_ok_of_bind {ε α β : Type} {x : Except ε α} {f : α → Except ε β} {b : β}
    (h : x >>= f = .ok b) : ∃ a, x = .ok a ∧ f a = .ok b := by
  cases x with
  | error e => cases h
  | ok a => exact ⟨a, rfl, h⟩

/-- Nanoseconds in a second. -/
def nanosPerSecond : ℤ := 1000000000

/-- `DateTime::timestamp`: whole seconds since the epoch, rounded down. -/
def DateTime.timestamp (t : DateTime) : ℤ := t / nanosPerSecond

/-- `Duration::num_seconds`: whole seconds, rounded towards zero. -/
def Duration.numSeconds (d : Duration) : ℤ := d.tdiv nanosPerSecond

/-- `Duration::num_minutes`. -/
def Duration.numMinutes (d : Duration) : ℤ := (Duration.numSeconds d).tdiv 60

/-- A duration of so many seconds, when it is in range. -/
def seconds (n : ℤ) : Duration := n * nanosPerSecond

theorem seconds_le_seconds {m n : ℤ} (h : m ≤ n) : seconds m ≤ seconds n :=
  Int.mul_le_mul_of_nonneg_right h (by decide)

/-- A duration of so many minutes, when it is in range. -/
def minutes (n : ℤ) : Duration := seconds (n * 60)

/-- A duration of so many hours, when it is in range. -/
def hours (n : ℤ) : Duration := seconds (n * 3600)

/-- `i64::MAX`. -/
def i64Max : ℤ := 9223372036854775807

/-- The number of unsigned 64-bit values. -/
def u64Modulus : ℤ := 18446744073709551616

/-- The `as i64` cast of an unsigned 64-bit value. -/
def asI64 (n : ℕ) : ℤ :=
  let bits := (n : ℤ) % u64Modulus
  if bits ≤ i64Max then bits else bits - u64Modulus

theorem asI64_of_le {n : ℕ} (h : (n : ℤ) ≤ i64Max) : asI64 n = n := by
  unfold asI64 u64Modulus
  unfold i64Max at h ⊢
  dsimp only
  split <;> omega

/-- From 2 ^ 63 on the cast is negative. -/
theorem asI64_of_gt {n : ℕ} (hn : n < 2 ^ 64) (h : i64Max < n) : asI64 n = n - u64Modulus := by
  unfold asI64 u64Modulus
  unfold i64Max at h ⊢
  dsimp only
  split <;> omega

/-- The `as u64` cast of a signed 64-bit value. -/
def u64OfI64 (n : ℤ) : ℕ := (n % u64Modulus).toNat

/-- An unsigned value survives its way through a signed one. -/
theorem u64OfI64_asI64 {n : ℕ} (h : n < 2 ^ 64) : u64OfI64 (asI64 n) = n := by
  unfold u64OfI64 asI64 u64Modulus
  dsimp only
  split <;> omega

/-- `Duration::seconds`, which panics unless the value is a whole number of milliseconds in `i64`. -/
def trySeconds (n : ℤ) : Except Panic Duration :=
  if -(i64Max / 1000) ≤ n ∧ n ≤ i64Max / 1000 then .ok (seconds n) else .error .durationOutOfBounds

/-- `Duration::days`. -/
def tryDays (n : ℤ) : Except Panic Duration := trySeconds (n * 86400)

/-- The first instant of `DateTime<Utc>`. -/
def minUtc : DateTime := seconds (-8334601228800)

/-- The last instant of `DateTime<Utc>`. -/
def maxUtc : DateTime := seconds 8210266876799 + 999999999

/-- `DateTime - Duration`, which panics outside the range of `DateTime<Utc>`. -/
def DateTime.trySub (t : DateTime) (d : Duration) : Except Panic DateTime :=
  if minUtc ≤ t - d ∧ t - d ≤ maxUtc then .ok (t - d) else .error .dateTimeOverflow

theorem DateTime.eq_of_trySub {t t' : DateTime} {d : Duration} (h : trySub t d = .ok t') :
    t' = t - d := by
  unfold trySub at h
  split at h
  · exact (Except.ok.inj h).symm
  · cases h

/-- So many seconds before an instant there is one when it is in range: the range of a duration is
wider. -/
theorem trySub_trySeconds_eq_ok_iff {now t : DateTime} (hmin : minUtc ≤ now) (hmax : now ≤ maxUtc)
    (n : ℤ) :
    (trySeconds n >>= fun d => DateTime.trySub now d) = .ok t ↔
      (minUtc ≤ t ∧ t ≤ maxUtc) ∧ t = now - seconds n := by
  unfold trySeconds DateTime.trySub
  split_ifs with hseconds
  · show (if minUtc ≤ now - seconds n ∧ now - seconds n ≤ maxUtc then _ else _) = _ ↔ _
    split_ifs with hrange
    · constructor
      · intro h
        obtain rfl := Except.ok.inj h
        exact ⟨hrange, rfl⟩
      · rintro ⟨-, rfl⟩
        rfl
    · refine iff_of_false (fun h => by cases h) ?_
      rintro ⟨h, rfl⟩
      exact hrange h
  · refine iff_of_false (fun h => by cases h) ?_
    rintro ⟨⟨hlow, hhigh⟩, rfl⟩
    have hspan : ∀ first last now : ℤ, first ≤ now → now ≤ last →
        first ≤ now - n * 1000000000 → now - n * 1000000000 ≤ last →
          -(last - first) ≤ n * 1000000000 ∧ n * 1000000000 ≤ last - first := by omega
    have hrange := hspan minUtc maxUtc now hmin hmax hlow hhigh
    have hlength : maxUtc - minUtc = 16544868105599999999999 := by decide
    rw [hlength] at hrange
    unfold i64Max at hseconds
    omega

/-- The text conversions of the `chrono` crate that the program uses. -/
structure Rfc3339 where
  /-- `DateTime::to_rfc3339`. -/
  toRfc3339 : DateTime → String
  /-- `DateTime::parse_from_rfc3339`, converted to UTC. -/
  parseFromRfc3339 : String → Option DateTime

/-- The text conversions at one instant. -/
def exampleText : Rfc3339 where
  toRfc3339 _ := "2025-01-14T10:47:00+00:00"
  parseFromRfc3339 text :=
    if text = "2025-01-14T10:47:00+00:00" then some (seconds 1736851620) else none

end StellarFeeTracker
