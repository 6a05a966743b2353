import StellarFeeTracker.Devkit.Random
import StellarFeeTracker.General.Machine
import StellarFeeTracker.Numeric
import Mathlib.Algebra.Order.Group.MinMax

/-!
# Simulated fees

A fee model walks from the base fee: each step adds the trend and some noise and clamps the sum to the
range of the model.  In a run of any calls the generator stays nonzero, the fees stay in the range and
no step is longer than the trend and the noise (`feeModel_runs`); a reset leads back to the start.
-/

namespace StellarFeeTracker.Devkit

open Machine

inductive FeeModelError where
  | invalidFeeRange
  | baseFeeOutOfRange
  | negativeVolatility
  | zeroSeed
  deriving DecidableEq, Repr

structure FeeModelConfig where
  baseFee : ℚ
  volatility : ℚ
  trendPerStep : ℚ
  minFee : ℚ
  maxFee : ℚ
  seed : BitVec 64
  deriving DecidableEq, Repr

def FeeModelConfig.default : FeeModelConfig where
  baseFee := 100
  volatility := 1 / 10
  trendPerStep := 0
  minFee := 0
  maxFee := 1000
  seed := 0x5EED1234ABCD0001#64

structure FeeModel where
  config : FeeModelConfig
  state : ℚ
  rng : BitVec 64
  generated : ℕ
  deriving DecidableEq, Repr

namespace FeeModel

def new (config : FeeModelConfig) : Except FeeModelError FeeModel :=
  if config.maxFee < config.minFee then .error .invalidFeeRange
  else if config.baseFee < config.minFee ∨ config.maxFee < config.baseFee then
    .error .baseFeeOutOfRange
  else if config.volatility < 0 then .error .negativeVolatility
  else if config.seed = 0#64 then .error .zeroSeed
  else .ok { state := config.baseFee, rng := config.seed, config, generated := 0 }

variable (model : FeeModel)

def currentFee : ℚ := model.state

def nextUnit : ℚ × FeeModel :=
  ((Devkit.nextUnit model.rng).1, { model with rng := (Devkit.nextUnit model.rng).2 })

def nextFee : ℚ × FeeModel :=
  let amplitude := model.config.volatility * model.config.baseFee
  let (unit, model) := model.nextUnit
  let noise := (unit * 2 - 1) * amplitude
  let state := clamp (model.state + model.config.trendPerStep + noise) model.config.minFee
    model.config.maxFee
  (state, { model with state, generated := model.generated + 1 })

def generate : ℕ → FeeModel → List ℚ × FeeModel
  | 0, model => ([], model)
  | count + 1, model =>
    let (fee, model) := model.nextFee
    let (fees, model) := generate count model
    (fee :: fees, model)

def reset : FeeModel :=
  { model with state := model.config.baseFee, rng := model.config.seed, generated := 0 }

end FeeModel

/-! ## Runs -/

inductive FeeModelCall where
  | nextFee
  | generate (count : ℕ)
  | reset
  deriving DecidableEq, Repr

/-- What happens when a fee is drawn: the state of the generator afterwards, the unit, and the fee with
the one before it. -/
structure FeeDraw where
  rng : BitVec 64
  unit : ℚ
  previous : ℚ
  fee : ℚ
  deriving DecidableEq, Repr

/-- The draw has a nonzero state, a unit, a fee in the range and a bounded step. -/
structure FeeDraw.InRange (config : FeeModelConfig) (draw : FeeDraw) : Prop where
  rng_ne_zero : draw.rng ≠ 0#64
  unit_mem : 0 ≤ draw.unit ∧ draw.unit < 1
  fee_mem : config.minFee ≤ draw.fee ∧ draw.fee ≤ config.maxFee
  step_le : |draw.fee - draw.previous| ≤
    |config.trendPerStep| + config.volatility * |config.baseFee|

namespace FeeModel

/-- A call, with the fees that it returns. -/
def step (model : FeeModel) : FeeModelCall → FeeModel × List ℚ
  | .nextFee => (model.nextFee.2, [model.nextFee.1])
  | .generate count => ((generate count model).2, (generate count model).1)
  | .reset => (model.reset, [])

def draw (model : FeeModel) : FeeDraw where
  rng := model.nextFee.2.rng
  unit := model.nextUnit.1
  previous := model.currentFee
  fee := model.nextFee.1

def draws : ℕ → FeeModel → List FeeDraw
  | 0, _ => []
  | count + 1, model => model.draw :: draws count model.nextFee.2

/-- A call, with its draws. -/
def drawStep (model : FeeModel) : FeeModelCall → FeeModel × List FeeDraw
  | .nextFee => (model.nextFee.2, [model.draw])
  | .generate count => ((generate count model).2, draws count model)
  | .reset => (model.reset, [])

theorem generate_fst (count : ℕ) (model : FeeModel) :
    (generate count model).1 = (draws count model).map (·.fee) := by
  induction count generalizing model with
  | zero => rfl
  | succ count ih => exact congrArg (model.nextFee.1 :: ·) (ih model.nextFee.2)

/-- The fee before the first draw is the current one, and before each further draw the one just drawn. -/
theorem draws_previous (count : ℕ) (model : FeeModel) :
    (draws count model).map (·.previous) ++ [(generate count model).2.currentFee] =
      model.currentFee :: (generate count model).1 := by
  induction count generalizing model with
  | zero => rfl
  | succ count ih => exact congrArg (model.currentFee :: ·) (ih model.nextFee.2)

/-- The fees that a run returns are those of its draws. -/
theorem emitted_step (model : FeeModel) (calls : List FeeModelCall) :
    emitted step model calls = (emitted drawStep model calls).map (·.fee) := by
  have hsim : emitted step model calls =
      (emitted drawStep model calls).filterMap fun draw => some draw.fee := by
    refine emitted_of_simulation (fun s t => t = s) _ ?_ rfl calls
    rintro _ t call rfl
    cases call with
    | nextFee => exact ⟨rfl, rfl⟩
    | generate count =>
      refine ⟨rfl, (generate_fst count t).trans ?_⟩
      rw [List.filterMap_eq_map']
      rfl
    | reset => exact ⟨rfl, rfl⟩
  rw [hsim, List.filterMap_eq_map']

/-! ## What every call keeps -/

/-- A model that was made with a configuration and has been used. -/
structure Valid (config : FeeModelConfig) (model : FeeModel) : Prop where
  config_eq : model.config = config
  rng_ne_zero : model.rng ≠ 0#64
  state_mem : config.minFee ≤ model.state ∧ model.state ≤ config.maxFee

variable {config : FeeModelConfig} {model : FeeModel}

/-- What `new` accepts. -/
theorem eq_of_new (hnew : new config = .ok model) :
    (config.minFee ≤ config.baseFee ∧ config.baseFee ≤ config.maxFee) ∧ 0 ≤ config.volatility ∧
      config.seed ≠ 0#64 ∧
        model = { state := config.baseFee, rng := config.seed, config, generated := 0 } := by
  unfold new at hnew
  split_ifs at hnew with hrange hbase hvolatility hseed
  rw [not_or, not_lt, not_lt] at hbase
  exact ⟨hbase, not_lt.1 hvolatility, hseed, (Except.ok.inj hnew).symm⟩

theorem valid_of_new (hnew : new config = .ok model) : Valid config model := by
  obtain ⟨hbase, -, hseed, rfl⟩ := eq_of_new hnew
  exact ⟨rfl, hseed, hbase⟩

theorem abs_clamp_sub_le {x y low high : ℚ} (hlow : low ≤ y) (hhigh : y ≤ high) :
    |clamp x low high - y| ≤ |x - y| := by
  have hmax := abs_max_sub_max_le_max low (min x high) low (min y high)
  have hmin := abs_min_sub_min_le_max x high y high
  rw [sub_self, abs_zero, max_eq_right (abs_nonneg (min x high - min y high))] at hmax
  rw [sub_self, abs_zero, max_eq_left (abs_nonneg (x - y))] at hmin
  have h : |clamp x low high - clamp y low high| ≤ |x - y| := hmax.trans hmin
  rwa [clamp_of_mem hlow hhigh] at h

section Accepted

variable (hrange : config.minFee ≤ config.maxFee)
include hrange

theorem Valid.nextFee (h : Valid config model) : Valid config model.nextFee.2 where
  config_eq := h.config_eq
  rng_ne_zero := nextUnit_ne_zero h.rng_ne_zero
  state_mem := by
    obtain rfl := h.config_eq
    exact clamp_mem _ hrange

theorem Valid.draw_inRange (hvolatility : 0 ≤ config.volatility) (h : Valid config model) :
    model.draw.InRange config where
  rng_ne_zero := (h.nextFee hrange).rng_ne_zero
  unit_mem := nextUnit_mem model.rng
  fee_mem := (h.nextFee hrange).state_mem
  step_le := by
    obtain rfl := h.config_eq
    set amplitude := model.config.volatility * model.config.baseFee with hamplitude
    set noise := ((Devkit.nextUnit model.rng).1 * 2 - 1) * amplitude with hnoise
    have hnoise_le : |noise| ≤ model.config.volatility * |model.config.baseFee| := by
      rw [← abs_of_nonneg hvolatility, ← abs_mul]
      exact abs_noise_le model.rng amplitude
    calc |model.nextFee.1 - model.currentFee|
        ≤ |model.state + model.config.trendPerStep + noise - model.state| :=
          abs_clamp_sub_le h.state_mem.1 h.state_mem.2
      _ = |model.config.trendPerStep + noise| := by ring_nf
      _ ≤ |model.config.trendPerStep| + |noise| := abs_add_le _ _
      _ ≤ |model.config.trendPerStep| + model.config.volatility * |model.config.baseFee| := by
        gcongr

/-- Drawing fees keeps a model valid, and every draw is in range. -/
theorem Valid.generate (hvolatility : 0 ≤ config.volatility) (h : Valid config model)
    (count : ℕ) :
    Valid config (FeeModel.generate count model).2 ∧
      ∀ draw ∈ draws count model, draw.InRange config := by
  induction count generalizing model with
  | zero => exact ⟨h, by simp [draws]⟩
  | succ count ih =>
    obtain ⟨hvalid, hdraws⟩ := ih (h.nextFee hrange)
    refine ⟨hvalid, ?_⟩
    rw [draws, List.forall_mem_cons]
    exact ⟨h.draw_inRange hrange hvolatility, hdraws⟩

end Accepted

/-- A reset leads back to the model that was made. -/
theorem Valid.reset_eq {made : FeeModel} (hnew : new config = .ok made)
    (h : Valid config model) : model.reset = made := by
  obtain ⟨-, -, -, rfl⟩ := eq_of_new hnew
  obtain rfl := h.config_eq
  rfl

theorem Valid.drawStep {made : FeeModel} (hnew : new config = .ok made) (h : Valid config model)
    (call : FeeModelCall) :
    Valid config (model.drawStep call).1 ∧ ∀ draw ∈ (model.drawStep call).2, draw.InRange config := by
  obtain ⟨hbase, hvolatility, -, -⟩ := eq_of_new hnew
  have hrange := hbase.1.trans hbase.2
  cases call with
  | nextFee =>
    exact ⟨h.nextFee hrange, List.forall_mem_singleton.2 (h.draw_inRange hrange hvolatility)⟩
  | generate count => exact h.generate hrange hvolatility count
  | reset =>
    refine ⟨?_, by simp [FeeModel.drawStep]⟩
    show Valid config model.reset
    rw [h.reset_eq hnew]
    exact valid_of_new hnew

theorem final_step (model : FeeModel) (calls : List FeeModelCall) :
    final step model calls = final drawStep model calls := by
  induction calls generalizing model with
  | nil => rfl
  | cons call calls ih => cases call <;> exact ih _

end FeeModel

/-- In every run of a model the generator is nonzero, every draw is in range, its step being counted
from the fee before it, and a reset replays the fees from the start. -/
theorem feeModel_runs {config : FeeModelConfig} {model : FeeModel}
    (hnew : FeeModel.new config = .ok model) (calls : List FeeModelCall) :
    (final FeeModel.step model calls).rng ≠ 0#64 ∧
      emitted FeeModel.step model calls = (emitted FeeModel.drawStep model calls).map (·.fee) ∧
      (∀ draw ∈ emitted FeeModel.drawStep model calls, draw.InRange config) ∧
      (∀ count, (FeeModel.draws count (final FeeModel.step model calls)).map (·.previous) ++
          [(FeeModel.generate count (final FeeModel.step model calls)).2.currentFee] =
        (final FeeModel.step model calls).currentFee ::
          (FeeModel.generate count (final FeeModel.step model calls)).1) ∧
      (final FeeModel.step model calls).reset = model ∧
      ∀ more, emitted FeeModel.step (final FeeModel.step model (calls ++ [.reset])) more =
        emitted FeeModel.step model more := by
  have hvalid : ∀ calls, FeeModel.Valid config (final FeeModel.step model calls) := by
    intro calls
    rw [FeeModel.final_step]
    exact final_induction _ (FeeModel.valid_of_new hnew) fun _ call _ h => (h.drawStep hnew call).1
  have hreset := (hvalid calls).reset_eq hnew
  refine ⟨(hvalid calls).rng_ne_zero, FeeModel.emitted_step model calls, ?_,
    fun count => FeeModel.draws_previous count _, hreset, fun more => ?_⟩
  · rw [forall_mem_emitted_iff]
    intro k call _
    rw [← FeeModel.final_step]
    exact ((hvalid _).drawStep hnew call).2
  · rw [final_append]
    show emitted FeeModel.step (final FeeModel.step model calls).reset more = _
    rw [hreset]

/-- Four fees of the default configuration. -/
theorem feeModel_runs_default :
    let calls := [.generate 3, .nextFee]
    ∃ model, FeeModel.new .default = .ok model ∧
      (final FeeModel.step model calls).rng ≠ 0#64 ∧
      emitted FeeModel.step model calls = (emitted FeeModel.drawStep model calls).map (·.fee) ∧
      (∀ draw ∈ emitted FeeModel.drawStep model calls, draw.InRange .default) ∧
      (∀ count, (FeeModel.draws count (final FeeModel.step model calls)).map (·.previous) ++
          [(FeeModel.generate count (final FeeModel.step model calls)).2.currentFee] =
        (final FeeModel.step model calls).currentFee ::
          (FeeModel.generate count (final FeeModel.step model calls)).1) ∧
      (final FeeModel.step model calls).reset = model ∧
      ∀ more, emitted FeeModel.step (final FeeModel.step model (calls ++ [.reset])) more =
        emitted FeeModel.step model more := by
  intro calls
  have hnew : FeeModel.new .default =
      .ok { config := .default, state := 100, rng := 0x5EED1234ABCD0001#64, generated := 0 } := by
    decide +kernel
  exact ⟨_, hnew, feeModel_runs hnew calls⟩

end StellarFeeTracker.Devkit
