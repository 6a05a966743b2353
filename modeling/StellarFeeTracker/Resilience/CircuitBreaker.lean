import StellarFeeTracker.General.Machine

/-!
# Circuit breaker

A breaker counts consecutive failures while it is closed and opens when they reach a threshold.  It
stays open for a cooldown, then lets calls through on trial, and closes again after enough successes.

`valid_run` is the invariant of every run: what the counters and the instant of opening are in each
state.  `closes` is its history: what closes a breaker is a reset, or as many successes on trial as the
threshold asks for, without a failure between them.  `runs_of_new` puts them together.
-/

namespace StellarFeeTracker

open Machine

/-! ## The breaker -/

/-- The states of a circuit breaker; `opened` is `CircuitState::Open`. -/
inductive CircuitState where
  | closed
  | opened
  | halfOpen
  deriving DecidableEq, Repr

/-- The cooldown is in nanoseconds. -/
structure CircuitBreakerConfig where
  failureThreshold : ℕ
  successThreshold : ℕ
  cooldown : ℕ
  deriving DecidableEq, Repr

def CircuitBreakerConfig.default : CircuitBreakerConfig where
  failureThreshold := 5
  successThreshold := 2
  cooldown := 30000000000

/-- A change of state, at an instant of the monotonic clock in nanoseconds. -/
structure StateTransition where
  source : CircuitState
  target : CircuitState
  time : ℤ
  deriving DecidableEq, Repr

structure CircuitBreaker where
  config : CircuitBreakerConfig
  state : CircuitState
  consecutiveFailures : ℕ
  consecutiveSuccesses : ℕ
  openedAt : Option ℤ
  lastTransition : Option StateTransition
  rejectedCalls : ℕ
  deriving DecidableEq, Repr

namespace CircuitBreaker

def new (config : CircuitBreakerConfig) : CircuitBreaker where
  config := {
    failureThreshold := max config.failureThreshold 1
    successThreshold := max config.successThreshold 1
    cooldown := config.cooldown }
  state := .closed
  consecutiveFailures := 0
  consecutiveSuccesses := 0
  openedAt := none
  lastTransition := none
  rejectedCalls := 0

variable (breaker : CircuitBreaker)

/-- The difference of two instants saturates at zero. -/
def cooldownElapsedAt (now : ℤ) : Bool :=
  match breaker.openedAt with
  | some openedAt => breaker.config.cooldown ≤ (now - openedAt).toNat
  | none => true

def transitionTo (target : CircuitState) (now : ℤ) : CircuitBreaker :=
  { breaker with
    state := target
    lastTransition := some { source := breaker.state, target, time := now } }

def isCallPermittedAt (now : ℤ) : CircuitBreaker × Bool :=
  match breaker.state with
  | .closed | .halfOpen => (breaker, true)
  | .opened =>
    if breaker.cooldownElapsedAt now then (breaker.transitionTo .halfOpen now, true)
    else ({ breaker with rejectedCalls := breaker.rejectedCalls + 1 }, false)

def recordSuccessAt (now : ℤ) : CircuitBreaker :=
  match breaker.state with
  | .halfOpen =>
    let breaker := { breaker with consecutiveSuccesses := breaker.consecutiveSuccesses + 1 }
    if breaker.config.successThreshold ≤ breaker.consecutiveSuccesses then
      transitionTo
        { breaker with consecutiveFailures := 0, consecutiveSuccesses := 0, openedAt := none }
        .closed now
    else breaker
  | .closed => { breaker with consecutiveFailures := 0 }
  | .opened => breaker

def recordFailureAt (now : ℤ) : CircuitBreaker :=
  match breaker.state with
  | .opened => breaker
  | .closed | .halfOpen =>
    let breaker :=
      { breaker with
        consecutiveFailures := breaker.consecutiveFailures + 1
        consecutiveSuccesses := 0 }
    if breaker.state = .halfOpen ∨
        breaker.config.failureThreshold ≤ breaker.consecutiveFailures then
      transitionTo { breaker with openedAt := some now, consecutiveSuccesses := 0 } .opened now
    else breaker

def forceOpen (now : ℤ) : CircuitBreaker :=
  transitionTo
    { breaker with
      openedAt := some now
      consecutiveFailures := breaker.config.failureThreshold
      consecutiveSuccesses := 0 }
    .opened now

def reset : CircuitBreaker :=
  { breaker with
    state := .closed
    consecutiveFailures := 0
    consecutiveSuccesses := 0
    openedAt := none
    lastTransition := none }

end CircuitBreaker

/-- An operation on a breaker, at an instant. -/
inductive CircuitOp where
  | isCallPermittedAt (now : ℤ)
  | recordSuccessAt (now : ℤ)
  | recordFailureAt (now : ℤ)
  | forceOpen (now : ℤ)
  | reset
  deriving DecidableEq, Repr

namespace CircuitBreaker

/-- Run an operation; a permission check puts out its answer. -/
def step (breaker : CircuitBreaker) : CircuitOp → CircuitBreaker × List Bool
  | .isCallPermittedAt now =>
    ((breaker.isCallPermittedAt now).1, [(breaker.isCallPermittedAt now).2])
  | .recordSuccessAt now => (breaker.recordSuccessAt now, [])
  | .recordFailureAt now => (breaker.recordFailureAt now, [])
  | .forceOpen now => (breaker.forceOpen now, [])
  | .reset => (breaker.reset, [])

/-! ## What holds in every state -/

/-- The representation of a breaker made for a configuration. -/
structure Valid (config : CircuitBreakerConfig) (breaker : CircuitBreaker) : Prop where
  config_eq : breaker.config = (new config).config
  closed : breaker.state = .closed →
    breaker.consecutiveFailures < breaker.config.failureThreshold ∧
      breaker.consecutiveSuccesses = 0 ∧ breaker.openedAt = none
  opened : breaker.state = .opened →
    breaker.openedAt.isSome = true ∧ breaker.consecutiveSuccesses = 0
  halfOpen : breaker.state = .halfOpen →
    breaker.consecutiveSuccesses < breaker.config.successThreshold

variable {config : CircuitBreakerConfig} {breaker : CircuitBreaker}

theorem Valid.thresholds_pos (h : breaker.Valid config) :
    0 < breaker.config.failureThreshold ∧ 0 < breaker.config.successThreshold := by
  rw [h.config_eq]
  exact ⟨Nat.le_max_right _ _, Nat.le_max_right _ _⟩

theorem valid_new (config : CircuitBreakerConfig) : (new config).Valid config where
  config_eq := rfl
  closed _ := ⟨Nat.le_max_right _ _, rfl, rfl⟩
  opened h := by simp [new] at h
  halfOpen h := by simp [new] at h

theorem valid_isCallPermittedAt (h : breaker.Valid config) (now : ℤ) :
    (breaker.isCallPermittedAt now).1.Valid config := by
  have hpos := h.thresholds_pos
  unfold isCallPermittedAt
  cases hs : breaker.state with
  | closed | halfOpen => exact h
  | opened =>
    obtain ⟨hat, hsuccesses⟩ := h.opened hs
    dsimp only
    split
    · -- on trial: the successes start from the zero they have while open
      exact ⟨h.config_eq, by simp [transitionTo], by simp [transitionTo], fun _ => by
        simpa [transitionTo, hsuccesses] using hpos.2⟩
    · exact ⟨h.config_eq, by simp, fun _ => ⟨hat, hsuccesses⟩, by simp⟩

theorem valid_recordSuccessAt (h : breaker.Valid config) (now : ℤ) :
    (breaker.recordSuccessAt now).Valid config := by
  have hpos := h.thresholds_pos
  unfold recordSuccessAt
  cases hs : breaker.state with
  | closed =>
    exact ⟨h.config_eq, fun _ => ⟨hpos.1, (h.closed hs).2⟩, by simp, by simp⟩
  | opened => exact h
  | halfOpen =>
    dsimp only
    split
    · exact ⟨h.config_eq, fun _ => ⟨hpos.1, rfl, rfl⟩, by simp [transitionTo],
        by simp [transitionTo]⟩
    · next hfew => exact ⟨h.config_eq, by simp, by simp, fun _ => not_le.1 hfew⟩

theorem valid_recordFailureAt (h : breaker.Valid config) (now : ℤ) :
    (breaker.recordFailureAt now).Valid config := by
  unfold recordFailureAt
  cases hs : breaker.state with
  | opened => exact h
  | closed =>
    dsimp only
    split
    · exact ⟨h.config_eq, by simp [transitionTo], fun _ => ⟨rfl, rfl⟩, by simp [transitionTo]⟩
    · next hfew =>
      have hlt := not_le.1 fun hle => hfew (.inr hle)
      exact ⟨h.config_eq, fun _ => ⟨hlt, rfl, (h.closed hs).2.2⟩, by simp, by simp⟩
  | halfOpen =>
    dsimp only
    rw [if_pos (Or.inl rfl)]
    exact ⟨h.config_eq, by simp [transitionTo], fun _ => ⟨rfl, rfl⟩, by simp [transitionTo]⟩

theorem valid_step (h : breaker.Valid config) (op : CircuitOp) :
    (breaker.step op).1.Valid config := by
  have hpos := h.thresholds_pos
  cases op with
  | isCallPermittedAt now => exact valid_isCallPermittedAt h now
  | recordSuccessAt now => exact valid_recordSuccessAt h now
  | recordFailureAt now => exact valid_recordFailureAt h now
  | forceOpen now =>
    exact ⟨h.config_eq, by simp [step, forceOpen, transitionTo], fun _ => ⟨rfl, rfl⟩,
      by simp [step, forceOpen, transitionTo]⟩
  | reset =>
    exact ⟨h.config_eq, fun _ => ⟨hpos.1, rfl, rfl⟩, by simp [step, reset],
      by simp [step, reset]⟩

theorem valid_run (config : CircuitBreakerConfig) (ops : List CircuitOp) :
    (final step (new config) ops).Valid config :=
  final_induction step (valid_new config) fun _ op _ h => valid_step h op

/-- A breaker that is open refuses calls until its cooldown is over. -/
theorem not_permitted {openedAt now : ℤ} (hs : breaker.state = .opened)
    (hat : breaker.openedAt = some openedAt) (hle : openedAt ≤ now)
    (hlt : now < openedAt + breaker.config.cooldown) :
    (breaker.isCallPermittedAt now).2 = false := by
  have helapsed : breaker.cooldownElapsedAt now = false := by
    simp only [cooldownElapsedAt, hat, decide_eq_false_iff_not]
    omega
  simp [isCallPermittedAt, hs, helapsed]

/-! ## How a breaker is closed again -/

end CircuitBreaker

/-- The operations a trial goes on with: permission checks and recorded successes. -/
def CircuitOp.continuesTrial : CircuitOp → Bool
  | .isCallPermittedAt _ | .recordSuccessAt _ => true
  | .recordFailureAt _ | .forceOpen _ | .reset => false

def CircuitOp.isSuccess : CircuitOp → Bool
  | .recordSuccessAt _ => true
  | _ => false

namespace CircuitBreaker

/-- What leads to a breaker on trial, and how many successes it has there. -/
theorem halfOpen_step {breaker : CircuitBreaker} {op : CircuitOp}
    (h : (breaker.step op).1.state = .halfOpen) :
    (breaker.state = .opened ∧
      (breaker.step op).1.consecutiveSuccesses = breaker.consecutiveSuccesses) ∨
    (breaker.state = .halfOpen ∧ op.continuesTrial = true ∧
      (breaker.step op).1.consecutiveSuccesses =
        breaker.consecutiveSuccesses + if op.isSuccess then 1 else 0) := by
  cases op with
  | isCallPermittedAt now =>
    simp only [step, isCallPermittedAt] at h ⊢
    cases hs : breaker.state with
    | closed => simp [hs] at h
    | halfOpen => simp [CircuitOp.continuesTrial, CircuitOp.isSuccess]
    | opened =>
      simp only [hs] at h ⊢
      split <;> simp [transitionTo]
  | recordSuccessAt now =>
    simp only [step, recordSuccessAt] at h ⊢
    cases hs : breaker.state with
    | closed => simp [hs] at h
    | opened => simp [hs] at h
    | halfOpen =>
      simp only [hs] at h ⊢
      split at h
      · simp [transitionTo] at h
      · next hfew => simp [hfew, CircuitOp.continuesTrial, CircuitOp.isSuccess]
  | recordFailureAt now =>
    simp only [step, recordFailureAt] at h
    cases hs : breaker.state with
    | closed =>
      simp only [hs] at h
      split at h <;> simp [transitionTo] at h
    | opened => simp [hs] at h
    | halfOpen => simp [hs, transitionTo] at h
  | forceOpen now => simp [step, forceOpen, transitionTo] at h
  | reset => simp [step, reset] at h

/-- What closes a breaker. -/
theorem closed_step {breaker : CircuitBreaker} {op : CircuitOp} (hs : breaker.state ≠ .closed)
    (h : (breaker.step op).1.state = .closed) :
    op = .reset ∨
      breaker.state = .halfOpen ∧
        breaker.config.successThreshold ≤ breaker.consecutiveSuccesses + 1 ∧
        ∃ now, op = .recordSuccessAt now := by
  cases op with
  | isCallPermittedAt now =>
    simp only [step, isCallPermittedAt] at h
    cases hstate : breaker.state with
    | closed => exact absurd hstate hs
    | halfOpen => simp [hstate] at h
    | opened =>
      simp only [hstate] at h
      split at h <;> simp [transitionTo, hstate] at h
  | recordSuccessAt now =>
    simp only [step, recordSuccessAt] at h
    cases hstate : breaker.state with
    | closed => exact absurd hstate hs
    | opened => simp [hstate] at h
    | halfOpen =>
      simp only [hstate] at h
      split at h
      · next henough => exact .inr ⟨rfl, henough, now, rfl⟩
      · simp at h
  | recordFailureAt now =>
    simp only [step, recordFailureAt] at h
    cases hstate : breaker.state with
    | closed => exact absurd hstate hs
    | opened => simp [hstate] at h
    | halfOpen => simp [hstate, transitionTo] at h
  | forceOpen now => simp [step, forceOpen, transitionTo] at h
  | reset => exact .inl rfl

/-- The state a new breaker is in before operation `k` of a run. -/
def stateAt (config : CircuitBreakerConfig) (ops : List CircuitOp) (k : ℕ) : CircuitBreaker :=
  final step (new config) (ops.take k)

/-- Between the open state before operation `m` and the state before operation `k` the breaker is on
trial, and `successes` calls succeeded there, without a failure between them. -/
structure OnTrial (config : CircuitBreakerConfig) (ops : List CircuitOp) (m k successes : ℕ) :
    Prop where
  lt : m < k
  opened : (stateAt config ops m).state = .opened
  halfOpen : ∀ l, m < l → l ≤ k → (stateAt config ops l).state = .halfOpen
  continues : ∀ op ∈ (ops.take k).drop (m + 1), op.continuesTrial = true
  successes_eq : ((ops.take k).drop (m + 1)).countP CircuitOp.isSuccess = successes

section History

variable {config : CircuitBreakerConfig} {ops : List CircuitOp} {m k successes : ℕ} {op : CircuitOp}

theorem stateAt_succ (hop : ops[k]? = some op) :
    stateAt config ops (k + 1) = ((stateAt config ops k).step op).1 :=
  final_take_succ step _ _ hop

theorem OnTrial.start (hopened : (stateAt config ops k).state = .opened)
    (hhalf : (stateAt config ops (k + 1)).state = .halfOpen) :
    OnTrial config ops k (k + 1) 0 := by
  have hnil : (ops.take (k + 1)).drop (k + 1) = [] :=
    List.drop_eq_nil_of_le (List.length_take_le _ _)
  refine ⟨by omega, hopened, fun l hl hle => ?_, by simp [hnil], by simp [hnil]⟩
  rwa [show l = k + 1 by omega]

theorem OnTrial.extend (h : OnTrial config ops m k successes) (hop : ops[k]? = some op)
    (hcontinues : op.continuesTrial = true)
    (hhalf : (stateAt config ops (k + 1)).state = .halfOpen) :
    OnTrial config ops m (k + 1) (successes + if op.isSuccess then 1 else 0) := by
  have hlength : k < ops.length := (List.getElem?_eq_some_iff.1 hop).1
  have hlt := h.lt
  have hslice : (ops.take (k + 1)).drop (m + 1) = (ops.take k).drop (m + 1) ++ [op] := by
    have hfits : m + 1 ≤ (ops.take k).length := by
      rw [List.length_take]
      omega
    rw [List.take_add_one, hop, List.drop_append_of_le_length hfits]
    rfl
  refine ⟨by omega, h.opened, fun l hl hle => ?_, ?_, ?_⟩
  · rcases Nat.le_succ_iff.1 hle with hle | rfl
    · exact h.halfOpen l hl hle
    · exact hhalf
  · rw [hslice]
    simpa [or_imp, forall_and] using ⟨h.continues, hcontinues⟩
  · rw [hslice, List.countP_append, h.successes_eq, List.countP_singleton]

/-- A breaker on trial was open before, and its counter is that of the successes since then. -/
theorem onTrial_of_halfOpen (hle : k ≤ ops.length)
    (h : (stateAt config ops k).state = .halfOpen) :
    ∃ m, OnTrial config ops m k (stateAt config ops k).consecutiveSuccesses := by
  induction k with
  | zero => simp [stateAt, new] at h
  | succ k ih =>
    have hop : ops[k]? = some ops[k] := List.getElem?_eq_getElem hle
    have hstep : stateAt config ops (k + 1) = ((stateAt config ops k).step ops[k]).1 :=
      stateAt_succ hop
    have hhalf := h
    rw [hstep] at h ⊢
    rcases halfOpen_step h with ⟨hopened, hsuccesses⟩ | ⟨hbefore, hcontinues, hsuccesses⟩
    · -- the step that starts the trial: an open breaker has no successes
      have hzero : (stateAt config ops k).consecutiveSuccesses = 0 :=
        ((valid_run config (ops.take k)).opened hopened).2
      rw [hsuccesses, hzero]
      exact ⟨k, .start hopened hhalf⟩
    · obtain ⟨m, hm⟩ := ih (by omega) hbefore
      rw [hsuccesses]
      exact ⟨m, hm.extend hop hcontinues hhalf⟩

theorem OnTrial.le_of_opened {i : ℕ} (h : OnTrial config ops m k successes) (hle : i ≤ k)
    (hopened : (stateAt config ops i).state = .opened) : i ≤ m := by
  by_contra hlt
  have hhalf := h.halfOpen i (not_le.1 hlt) hle
  rw [hopened] at hhalf
  cases hhalf

/-- The operation that closes a breaker is a reset, or the success that makes as many on trial as the
threshold asks for. -/
theorem closes (hop : ops[k]? = some op) (hbefore : (stateAt config ops k).state ≠ .closed)
    (hafter : (stateAt config ops (k + 1)).state = .closed) :
    op = .reset ∨ ∃ m successes now, OnTrial config ops m k successes ∧
      op = .recordSuccessAt now ∧ successes + 1 = (new config).config.successThreshold := by
  rw [stateAt_succ hop] at hafter
  rcases closed_step hbefore hafter with hreset | ⟨hhalf, henough, now, hsuccess⟩
  · exact .inl hreset
  · have hvalid : (stateAt config ops k).Valid config := valid_run config (ops.take k)
    have hfew := hvalid.halfOpen hhalf
    obtain ⟨m, hm⟩ := onTrial_of_halfOpen (List.getElem?_eq_some_iff.1 hop).1.le hhalf
    refine .inr ⟨m, _, now, hm, hsuccess, ?_⟩
    rw [hvalid.config_eq] at hfew henough
    omega

end History

/-- In every run of a new breaker: the counters and the instant of opening are as the state asks for;
an open breaker permits no call before its cooldown is over; and once it was open, before operation
`i`, each operation that closes it is a reset, or the last of as many successes as the threshold asks
for in a trial since then, without a failure between them. -/
theorem runs_of_new (config : CircuitBreakerConfig) (ops : List CircuitOp) :
    (∀ k, (stateAt config ops k).Valid config) ∧
    (∀ k openedAt now, (stateAt config ops k).state = .opened →
      (stateAt config ops k).openedAt = some openedAt → openedAt ≤ now →
      now < openedAt + config.cooldown →
      ((stateAt config ops k).isCallPermittedAt now).2 = false) ∧
    (∀ i k op, i ≤ k → (stateAt config ops i).state = .opened → ops[k]? = some op →
      (stateAt config ops k).state ≠ .closed → (stateAt config ops (k + 1)).state = .closed →
      op = .reset ∨ ∃ m successes now, i ≤ m ∧ OnTrial config ops m k successes ∧
        op = .recordSuccessAt now ∧ successes + 1 = (new config).config.successThreshold) := by
  refine ⟨fun k => valid_run config (ops.take k), ?_, ?_⟩
  · intro k openedAt now hs hat hle hlt
    have hvalid : (stateAt config ops k).Valid config := valid_run config (ops.take k)
    refine not_permitted hs hat hle ?_
    rw [hvalid.config_eq]
    exact hlt
  · intro i k op hle hopened hop hbefore hafter
    rcases closes hop hbefore hafter with hreset | ⟨m, successes, now, htrial, hrest⟩
    · exact .inl hreset
    · exact .inr ⟨m, successes, now, htrial.le_of_opened hle hopened, htrial, hrest⟩

/-- Two failures open a breaker, and after its cooldown one success closes it. -/
example :
    let config := { failureThreshold := 2, successThreshold := 1, cooldown := 5 }
    let ops := [.recordFailureAt 0, .recordFailureAt 1, .isCallPermittedAt 3, .isCallPermittedAt 6,
      .recordSuccessAt 7]
    emitted step (new config) ops = [false, true] ∧
      (final step (new config) ops).state = .closed := by
  decide

end CircuitBreaker

end StellarFeeTracker
