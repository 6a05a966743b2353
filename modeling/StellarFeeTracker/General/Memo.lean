import StellarFeeTracker.General.Machine
import Mathlib.Data.List.Forall2
import Mathlib.Data.Option.Basic

/-!
# Answering requests from a cache with expiry

A service computes the answer to a request, which may fail, and keeps answers in a cache under a key
of the request until they expire.  Beside the cache of answers we run a cache of requests that is
kept in the same way: it holds the request whose answer the other cache holds.  So `served` lists,
for each request of a run, the request whose answer it gets, and the run answers each request with
the answer to that one (`emitted_step`), which has the same key (`forall₂_served`).  An entry of the
cache was stored by one of the requests, and not replaced since (`exists_stores_of_entry`).
-/

namespace Memo

open Machine

/-- A cached value and the instant from which it is no longer used. -/
structure Entry (ν : Type*) where
  value : ν
  expiresAt : ℤ

/-- A cache. -/
abbrev Cache (κ ν : Type*) := κ → Option (Entry ν)

/-- How requests use the cache. -/
structure Policy (κ ρ : Type*) where
  key : ρ → κ
  /-- When the request looks up its key. -/
  lookupAt : ρ → ℤ
  /-- When the answer to the request expires, if it is kept. -/
  expiresAt : ρ → ℤ
  /-- The answer to the request is kept. -/
  keep : ρ → Bool

variable {κ ρ ν ε : Type*}

/-- The cache without entries. -/
def Cache.empty : Cache κ ν := fun _ => none

/-- The value under a key, unless it expired. -/
def lookup (cache : Cache κ ν) (key : κ) (now : ℤ) : Option ν :=
  (cache key).bind fun e => if now < e.expiresAt then some e.value else none

/-- Put a value under a key. -/
def insert [DecidableEq κ] (cache : Cache κ ν) (key : κ) (value : ν) (expiresAt : ℤ) : Cache κ ν :=
  fun k => if k = key then some { value, expiresAt } else cache k

/-- The answers of one cache are those of the requests in the other. -/
def Represents (f : ρ → Except ε ν) (requests : Cache κ ρ) (answers : Cache κ ν) : Prop :=
  ∀ k, Option.Rel (fun e e' => f e.value = .ok e'.value ∧ e.expiresAt = e'.expiresAt)
    (requests k) (answers k)

theorem represents_empty (f : ρ → Except ε ν) :
    Represents f (Cache.empty : Cache κ ρ) Cache.empty :=
  fun _ => .none

theorem Represents.lookup {f : ρ → Except ε ν} {requests : Cache κ ρ} {answers : Cache κ ν}
    (h : Represents f requests answers) (key : κ) (now : ℤ) :
    Option.Rel (fun r v => f r = .ok v) (lookup requests key now) (lookup answers key now) := by
  have hentry := h key
  unfold Memo.lookup
  generalize requests key = request at hentry
  generalize answers key = answer at hentry
  cases hentry with
  | none => exact .none
  | some hentry =>
    obtain ⟨hvalue, hexpires⟩ := hentry
    simp only [Option.bind_some, ← hexpires]
    split_ifs
    · exact .some hvalue
    · exact .none

variable [DecidableEq κ]

theorem Represents.insert {f : ρ → Except ε ν} {requests : Cache κ ρ} {answers : Cache κ ν}
    (h : Represents f requests answers) {r : ρ} {v : ν} (hr : f r = .ok v) (key : κ)
    (expiresAt : ℤ) :
    Represents f (insert requests key r expiresAt) (insert answers key v expiresAt) := by
  intro k
  unfold Memo.insert
  split_ifs
  · exact .some ⟨hr, rfl⟩
  · exact h k

variable (policy : Policy κ ρ) (f : ρ → Except ε ν)

/-- Answer a request: from the cache, or else by computing, keeping the answer if it is one to
keep. -/
def step (cache : Cache κ ν) (r : ρ) : Cache κ ν × List (Except ε ν) :=
  match lookup cache (policy.key r) (policy.lookupAt r) with
  | some v => (cache, [.ok v])
  | none =>
    match f r with
    | .error e => (cache, [.error e])
    | .ok v =>
      (if policy.keep r then insert cache (policy.key r) v (policy.expiresAt r) else cache, [.ok v])

/-- The step of the cache that keeps requests instead of their answers. -/
def servedStep (cache : Cache κ ρ) (r : ρ) : Cache κ ρ × List ρ :=
  match lookup cache (policy.key r) (policy.lookupAt r) with
  | some r' => (cache, [r'])
  | none => (if policy.keep r then insert cache (policy.key r) r (policy.expiresAt r) else cache, [r])

/-- For each request of a run from the empty cache, the request whose answer it gets. -/
def served (rs : List ρ) : List ρ := emitted (servedStep policy) Cache.empty rs

/-- One step of the two caches: the entries keep corresponding, and the request that serves is the
one whose answer is given. -/
theorem Represents.step {policy : Policy κ ρ} {f : ρ → Except ε ν}
    (hkeep : ∀ r, policy.keep r = true → ∃ v, f r = .ok v) {requests : Cache κ ρ}
    {answers : Cache κ ν} (h : Represents f requests answers) (r : ρ) :
    Represents f (servedStep policy requests r).1 (step policy f answers r).1 ∧
      (step policy f answers r).2 = (servedStep policy requests r).2.map f := by
  have hfound := h.lookup (policy.key r) (policy.lookupAt r)
  unfold Memo.step servedStep
  generalize Memo.lookup requests (policy.key r) (policy.lookupAt r) = request at hfound
  generalize Memo.lookup answers (policy.key r) (policy.lookupAt r) = answer at hfound
  cases hfound with
  | some hv => exact ⟨h, by simp [hv]⟩
  | none =>
    rcases hf : f r with e | v
    · have hnot : ¬ policy.keep r = true := by
        intro hk
        obtain ⟨v, hv⟩ := hkeep r hk
        rw [hf] at hv
        cases hv
      exact ⟨by simpa [hnot] using h, by simp [hf]⟩
    · refine ⟨?_, by simp [hf]⟩
      simp only
      split_ifs
      · exact h.insert hf _ _
      · exact h

/-- A run answers each request with the answer to the request that serves it. -/
theorem emitted_step (hkeep : ∀ r, policy.keep r = true → ∃ v, f r = .ok v) (rs : List ρ) :
    emitted (step policy f) Cache.empty rs = (served policy rs).map f := by
  rw [served, ← List.filterMap_eq_map]
  refine emitted_of_simulation (Represents f) _ ?_ (represents_empty f) rs
  intro requests answers r h
  rw [List.filterMap_eq_map]
  exact h.step hkeep r

/-- The entries of a cache of requests stand under their own keys and satisfy `P`. -/
def Keyed (P : ρ → Prop) (cache : Cache κ ρ) : Prop :=
  ∀ k e, cache k = some e → policy.key e.value = k ∧ P e.value

/-- One step: a request with `P` is served by one with its key and `P`. -/
theorem Keyed.servedStep {policy : Policy κ ρ} {P : ρ → Prop} {cache : Cache κ ρ}
    (h : Keyed policy P cache) {r : ρ} (hr : P r) :
    Keyed policy P (servedStep policy cache r).1 ∧
      ∃ r', (servedStep policy cache r).2 = [r'] ∧ policy.key r' = policy.key r ∧ P r' := by
  unfold Memo.servedStep
  rcases hfound : lookup cache (policy.key r) (policy.lookupAt r) with _ | r'
  · refine ⟨?_, r, rfl, rfl, hr⟩
    intro k e he
    simp only at he
    split_ifs at he
    · unfold insert at he
      split_ifs at he with hk
      · obtain rfl := Option.some.inj he
        exact ⟨hk.symm, hr⟩
      · exact h k e he
    · exact h k e he
  · obtain ⟨e, he, hvalue⟩ := Option.bind_eq_some_iff.1 hfound
    split_ifs at hvalue
    obtain rfl := Option.some.inj hvalue
    exact ⟨h, e.value, rfl, h _ e he⟩

/-- Each request is served by one with the same key, and by one of the requests so far: what holds
of all requests of the run holds of it. -/
theorem forall₂_served {P : ρ → Prop} {rs : List ρ} (hP : ∀ r ∈ rs, P r) :
    List.Forall₂ (fun r r' => policy.key r' = policy.key r ∧ P r') rs (served policy rs) := by
  have hrun : ∀ cache : Cache κ ρ, Keyed policy P cache →
      List.Forall₂ (fun r r' => policy.key r' = policy.key r ∧ P r') rs
        (emitted (servedStep policy) cache rs) := by
    induction rs with
    | nil => exact fun _ _ => .nil
    | cons r rs ih =>
      intro cache hcache
      rw [List.forall_mem_cons] at hP
      obtain ⟨hnext, r', hserved, hr'⟩ := hcache.servedStep hP.1
      rw [emitted_cons, hserved]
      exact .cons hr' (ih hP.2 _ hnext)
  apply hrun
  intro k e he
  cases he

/-! ### Where an entry comes from -/

/-- A request that finds no answer leaves its own in the cache, as this entry. -/
structure Stores (cache : Cache κ ν) (r : ρ) (k : κ) (e : Entry ν) : Prop where
  key : policy.key r = k
  miss : lookup cache (policy.key r) (policy.lookupAt r) = none
  answer : f r = .ok e.value
  keep : policy.keep r = true
  expiresAt : e.expiresAt = policy.expiresAt r

variable {policy f}

theorem Stores.step_eq {cache : Cache κ ν} {r : ρ} {k : κ} {e : Entry ν}
    (h : Stores policy f cache r k e) :
    step policy f cache r = (insert cache k e.value e.expiresAt, [.ok e.value]) := by
  unfold step
  rw [h.miss]
  simp [h.answer, h.keep, h.key, h.expiresAt]

/-- After a step an entry is as old as before, or the request stores it. -/
theorem step_entry_cases {cache : Cache κ ν} {r : ρ} {k : κ} {e : Entry ν}
    (h : (step policy f cache r).1 k = some e) : cache k = some e ∨ Stores policy f cache r k e := by
  unfold step at h
  rcases hfound : lookup cache (policy.key r) (policy.lookupAt r) with _ | v
  · rcases hf : f r with err | v
    · rw [hfound, hf] at h
      exact .inl h
    · simp only [hfound, hf] at h
      split_ifs at h with hkeep
      · unfold insert at h
        split_ifs at h with hk
        · obtain rfl := Option.some.inj h
          exact .inr ⟨hk.symm, hfound, hf, hkeep, rfl⟩
        · exact .inl h
      · exact .inl h
  · rw [hfound] at h
    exact .inl h

/-- An entry was stored by one of the requests of the run, and has been there since. -/
theorem exists_stores_of_entry {rs : List ρ} {k : κ} {e : Entry ν}
    (h : final (step policy f) Cache.empty rs k = some e) :
    ∃ earlier source between, rs = earlier ++ source :: between ∧
      Stores policy f (final (step policy f) Cache.empty earlier) source k e ∧
      ∀ middle, middle <+: between →
        final (step policy f) (step policy f (final (step policy f) Cache.empty earlier) source).1
          middle k = some e := by
  induction rs using List.reverseRecOn with
  | nil => cases h
  | append_singleton rs r ih =>
    have hstep := h
    rw [final_append] at hstep
    rcases step_entry_cases hstep with hold | hstores
    · obtain ⟨earlier, source, between, rfl, hstores, hkept⟩ := ih hold
      refine ⟨earlier, source, between ++ [r], by simp, hstores, fun middle hmiddle => ?_⟩
      rcases List.prefix_concat_iff.1 hmiddle with rfl | hprefix
      · rwa [List.append_assoc, List.cons_append, final_append, final_cons] at h
      · exact hkept middle hprefix
    · refine ⟨rs, r, [], rfl, hstores, fun middle hmiddle => ?_⟩
      rw [List.prefix_nil.1 hmiddle, final_nil, hstores.step_eq]
      exact if_pos rfl

end Memo
