import StellarFeeTracker.Cache
import StellarFeeTracker.General.Parties
import StellarFeeTracker.Services.Horizon

/-!
# Current fees

Requests for the current fees are parties that act in any order.  A request waits for the lock of the
cache, looks whether the entry is fresh, and otherwise fetches the fees and writes them, all before it
gives the lock back.  While it waits for the lock or for the fetch it may be cancelled, which gives the
lock back too.

`valid_final` says what holds in every state: one request holds the lock, and the entry is not fresh
while a request is about to replace it.  So writes are more than the time to live apart, and what is
served was fetched by the request or was fresh when it was read (`single_flight`).
-/

namespace StellarFeeTracker

open Parties

/-! ## Requests -/

/-- What the requests share; `hasProvider` is whether a provider of fees is configured. -/
structure FeesState (α : Type*) where
  now : ℤ
  hasProvider : Bool
  locked : Bool
  cache : ResponseCache α
  deriving DecidableEq, Repr

/-- How far a request of the current fees is. -/
inductive CurrentFees (α : Type*) where
  | waiting
  | acquired
  /-- The entry was fresh, and is to be read. -/
  | reading
  | missed
  | fetching
  | fetched (fresh : α)
  /-- The result is known, and the lock is to be given back. -/
  | leaving (result : Except AppError α)
  | done (result : Except AppError α)
  | cancelled
  deriving Repr

/-- What a request waits for has not come, or has, or the request is cancelled. -/
inductive Poll (α : Type*) where
  | pending
  | ready (result : Except AppError α)
  | cancel
  deriving Repr

/-- The time since the last step of any request, and what the request is polled with. -/
structure PollAfter (α : Type*) where
  elapsed : ℕ
  poll : Poll α
  deriving Repr

namespace CurrentFees

variable {α : Type*}

/-- The next step of a request.  It puts out the instants at which the cache is written. -/
def advance (state : FeesState α) (request : CurrentFees α) (poll : Poll α) :
    (FeesState α × CurrentFees α) × List ℤ :=
  match request with
  | .waiting =>
    match poll with
    | .cancel => ((state, .cancelled), [])
    | _ =>
      if state.locked then ((state, .waiting), [])
      else (({ state with locked := true }, .acquired), [])
  | .acquired =>
    if state.cache.isFresh state.now then ((state, .reading), []) else ((state, .missed), [])
  | .reading =>
    match state.cache.get state.now with
    | some cached => ((state, .leaving (.ok cached)), [])
    | none => ((state, .missed), [])
  | .missed =>
    if state.hasProvider then ((state, .fetching), [])
    else ((state, .leaving (.error (.config "Fee stats provider missing from fees state"))), [])
  | .fetching =>
    match poll with
    | .pending => ((state, .fetching), [])
    | .ready (.ok fresh) => ((state, .fetched fresh), [])
    | .ready (.error e) => ((state, .leaving (.error e)), [])
    | .cancel => (({ state with locked := false }, .cancelled), [])
  | .fetched fresh =>
    (({ state with cache := state.cache.set fresh state.now }, .leaving (.ok fresh)), [state.now])
  | .leaving result => (({ state with locked := false }, .done result), [])
  | .done result => ((state, .done result), [])
  | .cancelled => ((state, .cancelled), [])

/-- A step some time after the last one. -/
def act (state : FeesState α) (request : CurrentFees α) (input : PollAfter α) :
    (FeesState α × CurrentFees α) × List ℤ :=
  advance { state with now := state.now + input.elapsed } request input.poll

def step (s : System (FeesState α) (CurrentFees α)) (event : Parties.Event Unit (PollAfter α)) :
    System (FeesState α) (CurrentFees α) × List ℤ :=
  Parties.step (fun _ => .waiting) act s event

/-- An empty cache with a time to live and no request. -/
def initial (ttl : ℕ) (hasProvider : Bool) (now : ℤ) : System (FeesState α) (CurrentFees α) where
  shared := { now, hasProvider, locked := false, cache := .new ttl }
  parties := []

/-- The request is between the lock and its release. -/
def holdsLock : CurrentFees α → Bool
  | .acquired | .reading | .missed | .fetching | .fetched _ | .leaving _ => true
  | .waiting | .done _ | .cancelled => false

/-- The request found no fresh entry and has not replaced it. -/
def isReplacing : CurrentFees α → Bool
  | .missed | .fetching | .fetched _ => true
  | _ => false

theorem holdsLock_of_isReplacing {request : CurrentFees α} (h : request.isReplacing = true) :
    request.holdsLock = true := by
  cases request <;> first | rfl | cases h

/-! ## What holds in every state -/

/-- The lock and the entry, as the requests have them. -/
structure Valid (ttl : ℕ) (s : System (FeesState α) (CurrentFees α)) : Prop where
  ttl_eq : s.shared.cache.ttl = ttl
  entry : s.shared.cache.value.isSome = s.shared.cache.cachedAt.isSome
  lock : s.parties.countP holdsLock = if s.shared.locked then 1 else 0
  stale : ∀ request ∈ s.parties, request.isReplacing = true →
    s.shared.cache.isFresh s.shared.now = false

section Valid

variable {ttl k : ℕ} {s : System (FeesState α) (CurrentFees α)} {state' : FeesState α}
  {request request' : CurrentFees α}

theorem valid_initial (ttl : ℕ) (hasProvider : Bool) (now : ℤ) :
    Valid ttl (initial ttl hasProvider now : System (FeesState α) (CurrentFees α)) where
  ttl_eq := rfl
  entry := rfl
  lock := rfl
  stale request h := by cases h

theorem Valid.enter (h : Valid ttl s) (kind : Unit) :
    Valid ttl { s with parties := s.parties ++ [(fun _ => .waiting) kind] } where
  ttl_eq := h.ttl_eq
  entry := h.entry
  lock := by simpa [holdsLock] using h.lock
  stale request hrequest hreplacing := by
    rcases List.mem_append.1 hrequest with hrequest | hrequest
    · exact h.stale request hrequest hreplacing
    · rw [List.mem_singleton.1 hrequest] at hreplacing
      cases hreplacing

/-- Time passes. -/
theorem Valid.tick (h : Valid ttl s) (elapsed : ℕ) :
    Valid ttl { s with shared := { s.shared with now := s.shared.now + elapsed } } where
  ttl_eq := h.ttl_eq
  entry := h.entry
  lock := h.lock
  stale request hrequest hreplacing :=
    ResponseCache.isFresh_eq_false_mono (h.stale request hrequest hreplacing)
      (Int.le_add_of_nonneg_right (Int.natCast_nonneg elapsed))

/-- One request holds the lock. -/
theorem Valid.eq_of_holdsLock (h : Valid ttl s) {i j : ℕ} (hi : s.parties[i]? = some request)
    (hj : s.parties[j]? = some request') (hrequest : request.holdsLock = true)
    (hrequest' : request'.holdsLock = true) : i = j := by
  refine eq_of_countP_le_one ?_ hi hj hrequest hrequest'
  rw [h.lock]
  split <;> omega

/-- A step of one request that takes or gives back the lock as it says, and leaves the entry. -/
theorem Valid.set (h : Valid ttl s) (hk : s.parties[k]? = some request)
    (hcache : state'.cache = s.shared.cache) (hnow : state'.now = s.shared.now)
    (hlock : (if state'.locked then 1 else 0) + (if request.holdsLock then 1 else 0) =
      (if s.shared.locked then 1 else 0) + if request'.holdsLock then 1 else 0)
    (hstale : request'.isReplacing = true → s.shared.cache.isFresh s.shared.now = false) :
    Valid ttl { shared := state', parties := s.parties.set k request' } where
  ttl_eq := by rw [hcache, h.ttl_eq]
  entry := by rw [hcache, h.entry]
  lock := by
    have hset := countP_set_add holdsLock hk request'
    have := h.lock
    dsimp only
    omega
  stale other hother hreplacing := by
    rw [hcache, hnow]
    rcases List.mem_or_eq_of_mem_set hother with hother | rfl
    · exact h.stale other hother hreplacing
    · exact hstale hreplacing

/-- The step that replaces the entry: no other request is about to. -/
theorem Valid.write (h : Valid ttl s) {fresh : α} (hk : s.parties[k]? = some (.fetched fresh)) :
    Valid ttl
      { shared := { s.shared with cache := s.shared.cache.set fresh s.shared.now }
        parties := s.parties.set k (.leaving (.ok fresh)) } where
  ttl_eq := h.ttl_eq
  entry := rfl
  lock := by
    have hset := countP_set_add holdsLock hk (.leaving (.ok fresh))
    exact (Nat.add_right_cancel hset).trans h.lock
  stale other hother hreplacing := by
    obtain ⟨j, hj⟩ := List.mem_iff_getElem?.1 hother
    have hne : k ≠ j := by
      rintro rfl
      rw [List.getElem?_set_self (List.getElem?_eq_some_iff.1 hk).1] at hj
      rw [← Option.some.inj hj] at hreplacing
      cases hreplacing
    rw [List.getElem?_set_ne hne] at hj
    exact absurd (h.eq_of_holdsLock hk hj rfl (holdsLock_of_isReplacing hreplacing)) hne

theorem Valid.advance (h : Valid ttl s) (hk : s.parties[k]? = some request) (poll : Poll α) :
    Valid ttl
      { shared := (CurrentFees.advance s.shared request poll).1.1
        parties := s.parties.set k (CurrentFees.advance s.shared request poll).1.2 } := by
  have hlocked : request.holdsLock = true → s.shared.locked = true := by
    intro hholds
    have hpos := countP_pos_of_getElem? hk hholds
    rw [h.lock] at hpos
    by_contra hnot
    rw [if_neg hnot] at hpos
    exact absurd hpos (lt_irrefl 0)
  have hstale := h.stale request (List.mem_of_getElem? hk)
  cases request with
  | waiting =>
    cases poll with
    | cancel => exact h.set hk rfl rfl rfl fun h => by cases h
    | pending | ready =>
      dsimp only [CurrentFees.advance]
      split
      · exact h.set hk rfl rfl rfl fun h => by cases h
      · next hfree =>
        refine h.set hk rfl rfl ?_ fun h => by cases h
        rw [if_neg hfree]
        rfl
  | acquired =>
    dsimp only [CurrentFees.advance]
    split
    · exact h.set hk rfl rfl rfl fun h => by cases h
    · next hnot => exact h.set hk rfl rfl rfl fun _ => Bool.not_eq_true _ ▸ hnot
  | reading =>
    dsimp only [CurrentFees.advance]
    split
    · exact h.set hk rfl rfl rfl fun h => by cases h
    · next hnone =>
      exact h.set hk rfl rfl rfl fun _ => ResponseCache.isFresh_eq_false_of_get hnone
  | missed =>
    dsimp only [CurrentFees.advance]
    split
    · exact h.set hk rfl rfl rfl fun _ => hstale rfl
    · exact h.set hk rfl rfl rfl fun h => by cases h
  | fetching =>
    cases poll with
    | pending => exact h.set hk rfl rfl rfl fun _ => hstale rfl
    | ready result =>
      cases result with
      | ok fresh => exact h.set hk rfl rfl rfl fun _ => hstale rfl
      | error e => exact h.set hk rfl rfl rfl fun h => by cases h
    | cancel =>
      refine h.set hk rfl rfl ?_ fun h => by cases h
      rw [if_pos (hlocked rfl)]
      rfl
  | fetched fresh => exact h.write hk
  | leaving result =>
    refine h.set hk rfl rfl ?_ fun h => by cases h
    rw [if_pos (hlocked rfl)]
    rfl
  | done result => exact h.set hk rfl rfl rfl fun h => by cases h
  | cancelled => exact h.set hk rfl rfl rfl fun h => by cases h

theorem valid_final (ttl : ℕ) (hasProvider : Bool) (now : ℤ)
    (events : List (Parties.Event Unit (PollAfter α))) :
    Valid ttl (Machine.final step (initial ttl hasProvider now) events) :=
  Parties.final_induction events (valid_initial ttl hasProvider now)
    (fun _ kind h => h.enter kind)
    fun _ _ _ input h hk => (h.tick input.elapsed).advance hk input.poll

end Valid

/-! ## Writes -/

section Writes

variable {ttl k : ℕ} {s : System (FeesState α) (CurrentFees α)} {request : CurrentFees α}

/-- The only step that touches the entry writes what its request fetched. -/
theorem advance_cases (state : FeesState α) (request : CurrentFees α) (poll : Poll α) :
    (∃ fresh, request = .fetched fresh) ∨
      (advance state request poll).1.1.cache = state.cache ∧ (advance state request poll).2 = [] := by
  cases request with
  | fetched fresh => exact .inl ⟨fresh, rfl⟩
  | waiting =>
    refine .inr ?_
    cases poll with
    | cancel => exact ⟨rfl, rfl⟩
    | pending | ready =>
      dsimp only [advance]
      split <;> exact ⟨rfl, rfl⟩
  | acquired | reading | missed =>
    refine .inr ?_
    dsimp only [advance]
    split <;> exact ⟨rfl, rfl⟩
  | fetching =>
    refine .inr ?_
    cases poll with
    | ready result => cases result <;> exact ⟨rfl, rfl⟩
    | pending | cancel => exact ⟨rfl, rfl⟩
  | leaving | done | cancelled => exact .inr ⟨rfl, rfl⟩

theorem step_act (hk : s.parties[k]? = some request) (input : PollAfter α) :
    step s (.act k input) =
      ({ shared := (act s.shared request input).1.1
         parties := s.parties.set k (act s.shared request input).1.2 },
        (act s.shared request input).2) :=
  Parties.step_act hk input

/-- A step leaves the entry, or replaces one that was written more than the time to live before. -/
theorem Valid.step_cases (h : Valid ttl s) (event : Parties.Event Unit (PollAfter α)) :
    (step s event).1.shared.cache = s.shared.cache ∧ (step s event).2 = [] ∨
      ∃ w, (step s event).1.shared.cache.cachedAt = some w ∧ (step s event).2 = [w] ∧
        ∀ cachedAt, s.shared.cache.cachedAt = some cachedAt → cachedAt + ttl < w := by
  cases event with
  | enter kind => exact .inl ⟨rfl, rfl⟩
  | act k input =>
    cases hk : s.parties[k]? with
    | none =>
      have hstep : step s (.act k input) = (s, []) := by simp [step, Parties.step, hk]
      rw [hstep]
      exact .inl ⟨rfl, rfl⟩
    | some request =>
      rw [step_act hk]
      rcases advance_cases { s.shared with now := s.shared.now + input.elapsed } request input.poll
        with ⟨fresh, rfl⟩ | hsame
      · refine .inr ⟨_, rfl, rfl, fun cachedAt hat => ?_⟩
        have hstale := (h.tick input.elapsed).stale _ (List.mem_of_getElem? hk) rfl
        have hentry := h.entry
        rw [hat, Option.isSome_some, Option.isSome_iff_exists] at hentry
        obtain ⟨value, hvalue⟩ := hentry
        have hlt := ResponseCache.lt_of_isFresh_eq_false hstale hvalue hat
        rwa [h.ttl_eq] at hlt
      · exact .inl hsame

/-- The instants at which a run writes the cache are more than the time to live apart, and so is the
first of them from the last write before the run. -/
theorem Valid.writes_apart (h : Valid ttl s) (events : List (Parties.Event Unit (PollAfter α))) :
    (Machine.emitted step s events).Pairwise (fun w w' : ℤ => w + ttl < w') ∧
      ∀ cachedAt, s.shared.cache.cachedAt = some cachedAt →
        ∀ w ∈ Machine.emitted step s events, cachedAt + ttl < w := by
  induction events generalizing s with
  | nil => simp
  | cons event events ih =>
    have hvalid : Valid ttl (step s event).1 :=
      Parties.step_induction event h (fun kind => h.enter kind)
        fun _ _ input hk => (h.tick input.elapsed).advance hk input.poll
    obtain ⟨hpairwise, hlater⟩ := ih hvalid
    rw [Machine.emitted_cons]
    rcases h.step_cases event with ⟨hcache, hnone⟩ | ⟨w, hat, hw, hearlier⟩
    · rw [hnone, List.nil_append]
      exact ⟨hpairwise, hcache ▸ hlater⟩
    · rw [hw, List.singleton_append, List.pairwise_cons]
      refine ⟨⟨hlater w hat, hpairwise⟩, fun cachedAt hcachedAt => ?_⟩
      have hlt := hearlier cachedAt hcachedAt
      rw [List.forall_mem_cons]
      refine ⟨hlt, fun w' hw' => ?_⟩
      have := hlater w hat w' hw'
      omega

end Writes

/-! ## Fetches and what is served -/

section History

variable {ttl k : ℕ} {s : System (FeesState α) (CurrentFees α)} {request : CurrentFees α}
  {event : Parties.Event Unit (PollAfter α)} {p : α}

/-- While a request fetches, nothing touches the entry: the lock is its own. -/
theorem Valid.cache_step_of_fetching (h : Valid ttl s) (hk : s.parties[k]? = some .fetching)
    (event : Parties.Event Unit (PollAfter α)) :
    (step s event).1.shared.cache = s.shared.cache := by
  cases event with
  | enter kind => rfl
  | act j input =>
    cases hj : s.parties[j]? with
    | none => simp [step, Parties.step, hj]
    | some request =>
      rw [step_act hj]
      rcases advance_cases { s.shared with now := s.shared.now + input.elapsed } request input.poll
        with ⟨fresh, rfl⟩ | ⟨hcache, -⟩
      · obtain rfl := h.eq_of_holdsLock hk hj rfl rfl
        cases hk.symm.trans hj
      · exact hcache

/-- What the request is going to serve, or served. -/
def payload : CurrentFees α → Option α
  | .fetched fresh => some fresh
  | .leaving (.ok p) | .done (.ok p) => some p
  | _ => none

/-- A request comes to its payload by a fetch that returned it, or by reading a fresh entry. -/
theorem payload_advance {state : FeesState α} {poll : Poll α}
    (h : (advance state request poll).1.2.payload = some p) :
    request.payload = some p ∨ request = .fetching ∧ poll = .ready (.ok p) ∨
      request = .reading ∧ state.cache.get state.now = some p := by
  cases request with
  | waiting =>
    cases poll with
    | cancel => cases h
    | pending | ready =>
      dsimp only [advance] at h
      split at h <;> cases h
  | acquired =>
    dsimp only [advance] at h
    split at h <;> cases h
  | reading =>
    dsimp only [advance] at h
    split at h
    · next cached hget =>
      cases h
      exact .inr (.inr ⟨rfl, hget⟩)
    · cases h
  | missed =>
    dsimp only [advance] at h
    split at h <;> cases h
  | fetching =>
    cases poll with
    | pending | cancel => cases h
    | ready result =>
      cases result with
      | error e => cases h
      | ok fresh =>
        cases h
        exact .inr (.inl ⟨rfl, rfl⟩)
  | fetched fresh => exact .inl h
  | leaving result => cases result <;> exact .inl h
  | done result => exact .inl h
  | cancelled => cases h

/-- The state before event `j` of a run. -/
def stateAt (ttl : ℕ) (hasProvider : Bool) (now : ℤ)
    (events : List (Parties.Event Unit (PollAfter α))) (j : ℕ) :
    System (FeesState α) (CurrentFees α) :=
  Machine.final step (initial ttl hasProvider now) (events.take j)

variable {hasProvider : Bool} {now : ℤ} {events : List (Parties.Event Unit (PollAfter α))} {j : ℕ}

/-- Before event `j`, a fetch that request `k` made returned a payload. -/
def FetchedBefore (ttl : ℕ) (hasProvider : Bool) (now : ℤ)
    (events : List (Parties.Event Unit (PollAfter α))) (j k : ℕ) (p : α) : Prop :=
  ∃ i < j, ∃ elapsed, events[i]? = some (.act k { elapsed, poll := .ready (.ok p) }) ∧
    (stateAt ttl hasProvider now events i).parties[k]? = some .fetching

/-- Before event `j`, request `k` read a payload from an entry of at most the age allowed. -/
def ReadFreshBefore (ttl : ℕ) (hasProvider : Bool) (now : ℤ)
    (events : List (Parties.Event Unit (PollAfter α))) (j k : ℕ) (p : α) : Prop :=
  ∃ i < j, ∃ input cachedAt, events[i]? = some (.act k input) ∧
    (stateAt ttl hasProvider now events i).parties[k]? = some .reading ∧
    (stateAt ttl hasProvider now events i).shared.cache.value = some p ∧
    (stateAt ttl hasProvider now events i).shared.cache.cachedAt = some cachedAt ∧
    (stateAt ttl hasProvider now events i).shared.now + input.elapsed - cachedAt ≤ ttl

theorem stateAt_succ (hevent : events[j]? = some event) :
    stateAt ttl hasProvider now events (j + 1) =
      (step (stateAt ttl hasProvider now events j) event).1 :=
  Machine.final_take_succ step _ _ hevent

theorem stateAt_succ_of_none (hevent : events[j]? = none) :
    stateAt ttl hasProvider now events (j + 1) = stateAt ttl hasProvider now events j :=
  Machine.final_take_succ_of_none step _ _ hevent

theorem valid_stateAt (ttl : ℕ) (hasProvider : Bool) (now : ℤ)
    (events : List (Parties.Event Unit (PollAfter α))) (j : ℕ) :
    Valid ttl (stateAt ttl hasProvider now events j) := valid_final ttl hasProvider now _

theorem payload_stateAt (hk : (stateAt ttl hasProvider now events j).parties[k]? = some request)
    (hp : request.payload = some p) :
    FetchedBefore ttl hasProvider now events j k p ∨
      ReadFreshBefore ttl hasProvider now events j k p := by
  induction j generalizing request with
  | zero => simp [stateAt, initial] at hk
  | succ j ih =>
    have hmono : FetchedBefore ttl hasProvider now events j k p ∨
        ReadFreshBefore ttl hasProvider now events j k p →
        FetchedBefore ttl hasProvider now events (j + 1) k p ∨
          ReadFreshBefore ttl hasProvider now events (j + 1) k p := by
      rintro (⟨i, hi, h⟩ | ⟨i, hi, h⟩)
      · exact .inl ⟨i, by omega, h⟩
      · exact .inr ⟨i, by omega, h⟩
    cases hevent : events[j]? with
    | none =>
      rw [stateAt_succ_of_none hevent] at hk
      exact hmono (ih hk hp)
    | some event =>
      rw [stateAt_succ hevent] at hk
      rcases Parties.getElem?_step hk with hsame | ⟨input, before, rfl, hbefore, rfl⟩ | ⟨_, _, rfl⟩
      · exact hmono (ih hsame hp)
      · rcases payload_advance hp with hp | ⟨rfl, hpoll⟩ | ⟨rfl, hget⟩
        · exact hmono (ih hbefore hp)
        · obtain ⟨elapsed, poll⟩ := input
          obtain rfl : poll = .ready (.ok p) := hpoll
          exact .inl ⟨j, by omega, elapsed, hevent, hbefore⟩
        · obtain ⟨hvalue, cachedAt, hat, hage⟩ := ResponseCache.age_of_get hget
          have httl := (valid_stateAt ttl hasProvider now events j).ttl_eq
          refine .inr ⟨j, by omega, input, cachedAt, hevent, hbefore, hvalue, hat, ?_⟩
          exact hage.trans_eq (congrArg _ httl)
      · cases hp

theorem cache_of_fetching {i : ℕ} (hij : i ≤ j)
    (hfetching : ∀ l, i ≤ l → l ≤ j →
      (stateAt ttl hasProvider now events l).parties[k]? = some .fetching) :
    (stateAt ttl hasProvider now events (j + 1)).shared.cache =
      (stateAt ttl hasProvider now events i).shared.cache := by
  have hstep : ∀ l, i ≤ l → l ≤ j → (stateAt ttl hasProvider now events (l + 1)).shared.cache =
      (stateAt ttl hasProvider now events l).shared.cache := by
    intro l hil hlj
    cases hevent : events[l]? with
    | none => rw [stateAt_succ_of_none hevent]
    | some event =>
      rw [stateAt_succ hevent]
      exact (valid_stateAt _ _ _ _ l).cache_step_of_fetching (hfetching l hil hlj) event
  induction j, hij using Nat.le_induction with
  | base => exact hstep i le_rfl le_rfl
  | succ j hij ih =>
    have hearlier := ih (fun l hil hlj => hfetching l hil (by omega))
      fun l hil hlj => hstep l hil (by omega)
    exact (hstep (j + 1) (by omega) le_rfl).trans hearlier

end History

/-- In every run of any number of requests: two writes of the cache are more than the time to live
apart; a request serves what its own fetch returned, or what it read from an entry of at most that
age; and from the start of a fetch to its end, however it ends, the entry stays as it is. -/
theorem single_flight (ttl : ℕ) (hasProvider : Bool) (now : ℤ)
    (events : List (Parties.Event Unit (PollAfter α))) :
    (Machine.emitted step (initial ttl hasProvider now) events).Pairwise
      (fun w w' : ℤ => w + ttl < w') ∧
    (∀ (j k : ℕ) (p : α), (stateAt ttl hasProvider now events j).parties[k]? = some (.done (.ok p)) →
      FetchedBefore ttl hasProvider now events j k p ∨
        ReadFreshBefore ttl hasProvider now events j k p) ∧
    (∀ i j k : ℕ, i ≤ j →
      (∀ l, i ≤ l → l ≤ j →
        (stateAt ttl hasProvider now events l).parties[k]? = some .fetching) →
      (stateAt ttl hasProvider now events (j + 1)).shared.cache =
        (stateAt ttl hasProvider now events i).shared.cache) :=
  ⟨((valid_initial ttl hasProvider now).writes_apart events).1,
    fun _ _ _ hk => payload_stateAt hk rfl,
    fun _ _ _ hij hfetching => cache_of_fetching hij hfetching⟩

end CurrentFees

end StellarFeeTracker
