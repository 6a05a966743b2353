import StellarFeeTracker.Middleware.ClientIp
import Mathlib.Data.Nat.Bitwise

/-!
# The API key

A request reaches the protected handler when its key is the configured one.  Keys are compared byte
for byte: the comparison collects all differences and looks at them at the end
(`constantTimeEq_iff`).
-/

namespace StellarFeeTracker

/-! ## The comparison -/

/-- Constant-time byte comparison to avoid timing leaks on key checks. -/
def constantTimeEq (a b : List UInt8) : Bool :=
  let maxLen := max a.length b.length
  let diff := (List.range maxLen).foldl
    (fun diff i => diff ||| (a.getD i 0 ^^^ b.getD i 0).toNat) (a.length ^^^ b.length)
  diff == 0

/-- What is collected is zero when each part of it is. -/
theorem foldl_lor_eq_zero_iff (f : ℕ → ℕ) (is : List ℕ) (init : ℕ) :
    is.foldl (fun diff i => diff ||| f i) init = 0 ↔ init = 0 ∧ ∀ i ∈ is, f i = 0 := by
  induction is generalizing init with
  | nil => simp
  | cons i is ih => rw [List.foldl_cons, ih, Nat.or_eq_zero_iff, List.forall_mem_cons, and_assoc]

theorem constantTimeEq_iff (a b : List UInt8) : constantTimeEq a b = true ↔ a = b := by
  have hbyte : ∀ i, (a.getD i 0 ^^^ b.getD i 0).toNat = 0 ↔ a.getD i 0 = b.getD i 0 := by
    intro i
    rw [← UInt8.xor_eq_zero_iff, ← UInt8.toNat_inj]
    rfl
  unfold constantTimeEq
  rw [beq_iff_eq, foldl_lor_eq_zero_iff, Nat.xor_eq_zero_iff]
  simp only [hbyte, List.mem_range]
  constructor
  · rintro ⟨hlength, hbytes⟩
    refine List.ext_getElem hlength fun i hi hi' => ?_
    have h := hbytes i (by omega)
    rwa [List.getD_eq_getElem a 0 hi, List.getD_eq_getElem b 0 hi'] at h
  · rintro rfl
    exact ⟨rfl, fun _ _ => rfl⟩

/-! ## The gate -/

/-- What the gate reads of a request: the values of its `x-api-key` headers, in order. -/
structure KeyedRequest where
  xApiKey : List (List UInt8)
  deriving DecidableEq, Repr

/-- The request goes on to the protected handler, or is answered with a status and an error. -/
inductive AuthOutcome where
  | next
  | rejected (status : ℕ) (error : String)
  deriving DecidableEq, Repr

def unauthorizedResponse : AuthOutcome :=
  .rejected 401 "Unauthorized: missing or invalid API key"

def forbiddenResponse (message : String) : AuthOutcome := .rejected 403 message

def requireApiKey (expectedKey : Option String) (request : KeyedRequest) : AuthOutcome :=
  match expectedKey with
  | none => .next
  | some expectedKey =>
    match request.xApiKey.head? with
    | none => unauthorizedResponse
    | some providedHeader =>
      match toStr providedHeader with
      | none => forbiddenResponse "Forbidden: invalid API key format"
      | some providedKey =>
        if providedKey.isEmpty then forbiddenResponse "Forbidden: invalid API key format"
        else if !constantTimeEq (utf8 providedKey) (utf8 expectedKey.toList) then
          unauthorizedResponse
        else .next

theorem toStr_nil_iff {value : List UInt8} {text : List Char} (h : toStr value = some text) :
    text = [] ↔ value = [] := by
  unfold toStr at h
  split_ifs at h
  obtain rfl := Option.some.inj h
  exact List.map_eq_nil_iff

/-- With a configured key the handler runs exactly for a visible, nonempty header that holds the bytes
of the key. -/
theorem requireApiKey_eq_next_iff (expectedKey : String) (request : KeyedRequest) :
    requireApiKey (some expectedKey) request = .next ↔
      ∃ value, request.xApiKey.head? = some value ∧ (toStr value).isSome ∧ value ≠ [] ∧
        value = utf8 expectedKey.toList := by
  unfold requireApiKey
  cases request.xApiKey.head? with
  | none => simp [unauthorizedResponse]
  | some value =>
    simp only [Option.some.injEq, exists_eq_left']
    cases htext : toStr value with
    | none => simp [forbiddenResponse]
    | some text =>
      have hnil := toStr_nil_iff htext
      by_cases hempty : text = []
      · simp [forbiddenResponse, hempty, hnil.1 hempty]
      · have hne : value ≠ [] := fun h => hempty (hnil.2 h)
        by_cases hsame : value = utf8 expectedKey.toList
        · have hsame' : constantTimeEq value value = true := (constantTimeEq_iff value value).2 rfl
          simp [utf8_of_toStr htext, hempty, hne, ← hsame, hsame']
        · have hdiffer : constantTimeEq value (utf8 expectedKey.toList) = false := by
            rw [← Bool.not_eq_true, constantTimeEq_iff]
            exact hsame
          simp [unauthorizedResponse, utf8_of_toStr htext, hempty, hdiffer, hsame]

/-- The gate lets a request through exactly when its key equals the configured one byte for byte. -/
theorem apiKey_gate :
    (∀ a b : List UInt8, constantTimeEq a b = true ↔ a = b) ∧
      ∀ (expectedKey : String) (request : KeyedRequest),
        requireApiKey (some expectedKey) request = .next ↔
          ∃ value, request.xApiKey.head? = some value ∧ (toStr value).isSome ∧ value ≠ [] ∧
            value = utf8 expectedKey.toList :=
  ⟨constantTimeEq_iff, requireApiKey_eq_next_iff⟩

example : requireApiKey (some "secret") { xApiKey := [bytes "secret"] } = .next ∧
    requireApiKey (some "secret") { xApiKey := [bytes "secret\x00"] } =
      forbiddenResponse "Forbidden: invalid API key format" := by
  decide

end StellarFeeTracker
