import StellarFeeTracker.Devkit.Random
import StellarFeeTracker.Numeric

/-!
# Simulated network load

The load of a fee is its place between a floor and a ceiling, scaled to the range of loads, with some
noise.  The noise does not depend on the fees, so higher fees make no load lower
(`networkLoad_mono`).
-/

namespace StellarFeeTracker.Devkit

inductive NetworkLoadError where
  | invalidRange
  | correlationOutOfRange
  | negativeNoise
  | zeroSeed
  deriving DecidableEq, Repr

structure NetworkLoadConfig where
  minLoad : ℚ
  maxLoad : ℚ
  correlation : ℚ
  noise : ℚ
  seed : BitVec 64
  deriving DecidableEq, Repr

def NetworkLoadConfig.default : NetworkLoadConfig where
  minLoad := 0
  maxLoad := 1
  correlation := 8 / 10
  noise := 5 / 100
  seed := 0x10AD0BED00000001#64

structure NetworkLoad where
  config : NetworkLoadConfig
  rng : BitVec 64
  last : ℚ
  samples : ℕ
  deriving DecidableEq, Repr

def normalize (value floor ceiling : ℚ) : ℚ :=
  if ceiling ≤ floor then 0 else clamp ((value - floor) / (ceiling - floor)) 0 1

theorem normalize_mono {value value' : ℚ} (h : value ≤ value') (floor ceiling : ℚ) :
    normalize value floor ceiling ≤ normalize value' floor ceiling := by
  unfold normalize
  split_ifs with hdegenerate
  · exact le_rfl
  · have hspan : 0 ≤ ceiling - floor := sub_nonneg.2 (not_le.1 hdegenerate).le
    exact clamp_mono (div_le_div_of_nonneg_right (sub_le_sub_right h floor) hspan) 0 1

namespace NetworkLoad

def new (config : NetworkLoadConfig) : Except NetworkLoadError NetworkLoad :=
  if config.minLoad < 0 ∨ 1 < config.maxLoad ∨ config.maxLoad < config.minLoad then
    .error .invalidRange
  else if config.correlation < 0 ∨ 1 < config.correlation then .error .correlationOutOfRange
  else if config.noise < 0 then .error .negativeNoise
  else if config.seed = 0#64 then .error .zeroSeed
  else .ok { config, rng := config.seed, last := config.minLoad, samples := 0 }

variable (load : NetworkLoad)

def nextUnit : ℚ × NetworkLoad :=
  ((Devkit.nextUnit load.rng).1, { load with rng := (Devkit.nextUnit load.rng).2 })

def fromFee (fee feeFloor feeCeiling : ℚ) : ℚ × NetworkLoad :=
  let position := normalize fee feeFloor feeCeiling
  let span := load.config.maxLoad - load.config.minLoad
  let correlated := position * span * load.config.correlation
  let (unit, load) := load.nextUnit
  let jitter := (unit * 2 - 1) * load.config.noise * span
  let last := clamp (load.config.minLoad + correlated + jitter) load.config.minLoad
    load.config.maxLoad
  (last, { load with last, samples := load.samples + 1 })

def generate (load : NetworkLoad) (fees : List ℚ) (feeFloor feeCeiling : ℚ) :
    List ℚ × NetworkLoad :=
  match fees with
  | [] => ([], load)
  | fee :: fees =>
    let (value, load) := load.fromFee fee feeFloor feeCeiling
    let (loads, load) := generate load fees feeFloor feeCeiling
    (value :: loads, load)

def reset : NetworkLoad :=
  { load with rng := load.config.seed, last := load.config.minLoad, samples := 0 }

end NetworkLoad

/-! ## Two runs -/

/-- What `NetworkLoad::new` makes sure of. -/
structure NetworkLoadConfig.Valid (config : NetworkLoadConfig) : Prop where
  loads_le : config.minLoad ≤ config.maxLoad
  correlation_nonneg : 0 ≤ config.correlation

namespace NetworkLoad

theorem valid_of_new {config : NetworkLoadConfig} {load : NetworkLoad}
    (hnew : new config = .ok load) : load.config = config ∧ config.Valid := by
  unfold new at hnew
  split_ifs at hnew with hrange hcorrelation hnoise hseed
  simp only [not_or, not_lt] at hrange hcorrelation
  obtain rfl := Except.ok.inj hnew
  exact ⟨rfl, hrange.2.2, hcorrelation.1⟩

theorem fromFee_fst (load : NetworkLoad) (fee feeFloor feeCeiling : ℚ) :
    (load.fromFee fee feeFloor feeCeiling).1 =
      clamp (load.config.minLoad + normalize fee feeFloor feeCeiling *
          (load.config.maxLoad - load.config.minLoad) * load.config.correlation +
        ((Devkit.nextUnit load.rng).1 * 2 - 1) * load.config.noise *
          (load.config.maxLoad - load.config.minLoad)) load.config.minLoad load.config.maxLoad := rfl

/-- The generator goes on in the same way after every fee. -/
theorem fromFee_rng (load : NetworkLoad) (fee feeFloor feeCeiling : ℚ) :
    (load.fromFee fee feeFloor feeCeiling).2.rng = (Devkit.nextUnit load.rng).2 := rfl

variable {load load' : NetworkLoad}

theorem fromFee_mem (h : load.config.Valid) (fee feeFloor feeCeiling : ℚ) :
    load.config.minLoad ≤ (load.fromFee fee feeFloor feeCeiling).1 ∧
      (load.fromFee fee feeFloor feeCeiling).1 ≤ load.config.maxLoad :=
  clamp_mem _ h.loads_le

/-- A higher fee makes no lower load, with the same noise. -/
theorem fromFee_mono (h : load.config.Valid) (hconfig : load.config = load'.config)
    (hrng : load.rng = load'.rng) {fee fee' : ℚ} (hfee : fee ≤ fee') (feeFloor feeCeiling : ℚ) :
    (load.fromFee fee feeFloor feeCeiling).1 ≤ (load'.fromFee fee' feeFloor feeCeiling).1 := by
  have hposition := normalize_mono hfee feeFloor feeCeiling
  have hspan : 0 ≤ load.config.maxLoad - load.config.minLoad := sub_nonneg.2 h.loads_le
  have hcorrelated := mul_le_mul_of_nonneg_right
    (mul_le_mul_of_nonneg_right hposition hspan) h.correlation_nonneg
  rw [fromFee_fst, fromFee_fst, ← hconfig, ← hrng]
  exact clamp_mono (add_le_add_left (add_le_add_right hcorrelated _) _) _ _

/-- All loads of a run are in the range. -/
theorem generate_mem (h : load.config.Valid) (fees : List ℚ) (feeFloor feeCeiling : ℚ) :
    ∀ value ∈ (load.generate fees feeFloor feeCeiling).1,
      load.config.minLoad ≤ value ∧ value ≤ load.config.maxLoad := by
  induction fees generalizing load with
  | nil => simp [generate]
  | cons fee fees ih =>
    rw [generate, List.forall_mem_cons]
    have hnext : (load.fromFee fee feeFloor feeCeiling).2.config.Valid := h
    exact ⟨fromFee_mem h fee feeFloor feeCeiling, ih hnext⟩

/-- Two runs with one noise and ordered fees have ordered loads. -/
theorem generate_mono (h : load.config.Valid) (hconfig : load.config = load'.config)
    (hrng : load.rng = load'.rng) {fees fees' : List ℚ} (hfees : List.Forall₂ (· ≤ ·) fees fees')
    (feeFloor feeCeiling : ℚ) :
    List.Forall₂ (· ≤ ·) (load.generate fees feeFloor feeCeiling).1
      (load'.generate fees' feeFloor feeCeiling).1 := by
  induction hfees generalizing load load' with
  | nil => exact .nil
  | @cons fee fee' fees fees' hfee hfees ih =>
    have hrng' : (load.fromFee fee feeFloor feeCeiling).2.rng =
        (load'.fromFee fee' feeFloor feeCeiling).2.rng := by
      rw [fromFee_rng, fromFee_rng, hrng]
    exact .cons (fromFee_mono h hconfig hrng hfee feeFloor feeCeiling) (ih h hconfig hrng')

end NetworkLoad

/-- Ordered fees make ordered loads, and every load is in the range. -/
theorem networkLoad_mono {config : NetworkLoadConfig} {load load' : NetworkLoad}
    (hnew : NetworkLoad.new config = .ok load) (hnew' : NetworkLoad.new config = .ok load')
    {fees fees' : List ℚ} (hfees : List.Forall₂ (· ≤ ·) fees fees') (feeFloor feeCeiling : ℚ) :
    List.Forall₂ (· ≤ ·) (load.generate fees feeFloor feeCeiling).1
        (load'.generate fees' feeFloor feeCeiling).1 ∧
      (∀ value ∈ (load.generate fees feeFloor feeCeiling).1,
        config.minLoad ≤ value ∧ value ≤ config.maxLoad) ∧
      ∀ value ∈ (load'.generate fees' feeFloor feeCeiling).1,
        config.minLoad ≤ value ∧ value ≤ config.maxLoad := by
  obtain rfl : load = load' := Except.ok.inj (hnew.symm.trans hnew')
  obtain ⟨rfl, hvalid⟩ := NetworkLoad.valid_of_new hnew
  exact ⟨NetworkLoad.generate_mono hvalid rfl rfl hfees feeFloor feeCeiling,
    NetworkLoad.generate_mem hvalid fees feeFloor feeCeiling,
    NetworkLoad.generate_mem hvalid fees' feeFloor feeCeiling⟩

/-- Two fees between 0 and 100. -/
theorem networkLoad_mono_default :
    let fees := [(10 : ℚ), 20]
    let fees' := [(10 : ℚ), 90]
    ∃ load, NetworkLoad.new .default = .ok load ∧
      List.Forall₂ (· ≤ ·) (load.generate fees 0 100).1 (load.generate fees' 0 100).1 ∧
      (∀ value ∈ (load.generate fees 0 100).1,
        NetworkLoadConfig.default.minLoad ≤ value ∧ value ≤ NetworkLoadConfig.default.maxLoad) ∧
      ∀ value ∈ (load.generate fees' 0 100).1,
        NetworkLoadConfig.default.minLoad ≤ value ∧ value ≤ NetworkLoadConfig.default.maxLoad := by
  intro fees fees'
  have hnew : NetworkLoad.new .default =
      .ok { config := .default, rng := 0x10AD0BED00000001#64, last := 0, samples := 0 } := by
    decide +kernel
  have hfees : List.Forall₂ (· ≤ ·) fees fees' := by norm_num [fees, fees']
  exact ⟨_, hnew, networkLoad_mono hnew hnew hfees 0 100⟩

end StellarFeeTracker.Devkit
