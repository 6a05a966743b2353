import Mathlib.Data.Int.Basic
import Mathlib.Tactic.Common

/-!
# Response cache

A cache of one value with a time to live.  Instants of the monotonic clock and the time to live are in
nanoseconds.
-/

namespace StellarFeeTracker

structure ResponseCache (α : Type*) where
  value : Option α
  cachedAt : Option ℤ
  ttl : ℕ
  deriving DecidableEq, Repr

namespace ResponseCache

variable {α : Type*}

def new (ttl : ℕ) : ResponseCache α where
  value := none
  cachedAt := none
  ttl := ttl

variable (cache : ResponseCache α)

/-- The time that has elapsed since an instant saturates at zero. -/
def isFresh (now : ℤ) : Bool :=
  match cache.value, cache.cachedAt with
  | some _, some cachedAt => (now - cachedAt).toNat ≤ cache.ttl
  | _, _ => false

def get (now : ℤ) : Option α := if cache.isFresh now then cache.value else none

def set (value : α) (now : ℤ) : ResponseCache α :=
  { cache with
    value := some value
    cachedAt := some now }

variable {cache} {now : ℤ}

/-- A value that is read was written at most the time to live before. -/
theorem age_of_get {value : α} (h : cache.get now = some value) :
    cache.value = some value ∧ ∃ cachedAt, cache.cachedAt = some cachedAt ∧
      now - cachedAt ≤ cache.ttl := by
  unfold get at h
  split at h
  · next hfresh =>
    refine ⟨h, ?_⟩
    cases hat : cache.cachedAt with
    | none => simp [isFresh, hat] at hfresh
    | some cachedAt =>
      refine ⟨cachedAt, rfl, ?_⟩
      have hage : (now - cachedAt).toNat ≤ cache.ttl := by simpa [isFresh, h, hat] using hfresh
      omega
  · cases h

theorem isFresh_eq_false_of_get (h : cache.get now = none) : cache.isFresh now = false := by
  by_contra hfresh
  rw [Bool.not_eq_false] at hfresh
  rw [get, if_pos hfresh] at h
  simp [isFresh, h] at hfresh

/-- A value that is not fresh was written more than the time to live before. -/
theorem lt_of_isFresh_eq_false {value : α} {cachedAt : ℤ} (h : cache.isFresh now = false)
    (hvalue : cache.value = some value) (hat : cache.cachedAt = some cachedAt) :
    cachedAt + cache.ttl < now := by
  have hage : ¬ (now - cachedAt).toNat ≤ cache.ttl := by simpa [isFresh, hvalue, hat] using h
  omega

/-- What is not fresh stays so. -/
theorem isFresh_eq_false_mono {later : ℤ} (h : cache.isFresh now = false) (hle : now ≤ later) :
    cache.isFresh later = false := by
  unfold isFresh at h ⊢
  split at h
  · next cachedAt _ hat =>
    simp only [decide_eq_false_iff_not] at h ⊢
    omega
  · rfl

end ResponseCache

end StellarFeeTracker
