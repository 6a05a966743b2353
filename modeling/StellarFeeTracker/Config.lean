import StellarFeeTracker.General.Pieces
import StellarFeeTracker.Repository
import StellarFeeTracker.Services.FeeStats

/-!
# The configuration

`Config::from_sources` reads the flags of the command line and the environment.  A flag stands before
its variable (`fromSourcesWithEnv_eq_noFlags`).  Some settings are refused when their variable says
nothing that can be read, and the first of these makes the error (`fromSourcesWithEnv_eq_error_iff`);
the others fall back to their default.

The configurations that the program starts with are exactly the well-formed ones
(`exists_fromSourcesWithEnv_iff`): what is read meets what its users rely on, and every such
configuration can be asked for, by the environment that spells it out (`fromSourcesWithEnv_toEnv`).
-/

namespace StellarFeeTracker

open Pieces

/-- The flags of the command line, whose parser reads the interval as a `u64`. -/
structure Cli where
  network : Option String
  horizonUrl : Option String
  pollInterval : Option ℕ
  pollInterval_le : ∀ n ∈ pollInterval, n ≤ u64Max

def Cli.noFlags : Cli where
  network := none
  horizonUrl := none
  pollInterval := none
  pollInterval_le := by simp

inductive StellarNetwork where
  | testnet
  | mainnet
  deriving DecidableEq, Repr

namespace StellarNetwork

/-- The well-known public Horizon URL of a network. -/
def defaultHorizonUrl : StellarNetwork → String
  | testnet => "https://horizon-testnet.stellar.org"
  | mainnet => "https://horizon.stellar.org"

def asStr : StellarNetwork → String
  | testnet => "testnet"
  | mainnet => "mainnet"

def parse (raw : String) : Except String StellarNetwork :=
  if raw = "testnet" then .ok testnet
  else if raw = "mainnet" then .ok mainnet
  else .error ("Invalid STELLAR_NETWORK: " ++ raw)

end StellarNetwork

/-- The settings of `RecommendationConfig`.  The confidence is what the variable says, before it is
rounded to a float, and need not be finite. -/
structure RecommendationSettings where
  defaultConfidence : FloatLiteral
  defaultLedgers : ℕ
  historyWindowSecs : ℕ
  cacheTtlSecs : ℕ
  minSampleCount : ℕ
  deriving DecidableEq, Repr

def RecommendationSettings.default : RecommendationSettings where
  defaultConfidence := .finite false 95 (-2)
  defaultLedgers := 2
  historyWindowSecs := 10800
  cacheTtlSecs := 10
  minSampleCount := 10

structure Config where
  stellarNetwork : StellarNetwork
  horizonUrl : String
  pollIntervalSeconds : ℕ
  cacheTtlSeconds : ℕ
  apiKey : Option String
  rateLimitPerMinute : ℕ
  webhookUrl : Option String
  alertThreshold : SpikeSeverity
  apiPort : ℕ
  allowedOrigins : List String
  retryAttempts : ℕ
  baseRetryDelayMs : ℕ
  databaseUrl : String
  storageRetentionDays : ℕ
  recommendation : RecommendationSettings
  enabledAlertTypes : List String
  staleDataThresholdSeconds : ℤ
  deriving DecidableEq, Repr

/-! ## Reading texts -/

/-- `str::parse` of an unsigned type with its largest value. -/
def parseUnsigned (max : ℕ) (s : String) : Option ℕ := (parseU64 s).filter (· ≤ max)

/-- `str::parse::<i64>`. -/
def parseI64 (s : String) : Option ℤ :=
  match s.toList with
  | '-' :: digits =>
    ((unsignedDigits digits).map fun n : ℕ => -(n : ℤ)).filter (-9223372036854775808 ≤ ·)
  | '+' :: digits => ((unsignedDigits digits).map Int.ofNat).filter (· ≤ 9223372036854775807)
  | digits => ((unsignedDigits digits).map Int.ofNat).filter (· ≤ 9223372036854775807)

/-- Parse an environment value, failing loudly when it is set but not a valid value. -/
def parseEnvValue {α : Type} (parse : String → Option α) (name raw : String) : Except String α :=
  match parse (trimmed raw) with
  | some value => .ok value
  | none => .error ("Invalid " ++ name ++ ": '" ++ raw ++ "'")

/-- `str::to_ascii_lowercase`. -/
def toAsciiLowercase (s : String) : String := String.ofList (s.toList.map Char.toLower)

def parseSpikeSeverity (value : String) : Except String SpikeSeverity :=
  let word := toAsciiLowercase (trimmed value)
  if word = "minor" then .ok .minor
  else if word = "moderate" then .ok .moderate
  else if word = "major" then .ok .major
  else if word = "critical" then .ok .critical
  else .error ("Invalid ALERT_THRESHOLD: " ++ value)

/-- The entries of a value between commas. -/
def commaSeparated (raw : String) : List String :=
  (pieces Uri.isWhiteSpace ',' raw.toList).map String.ofList

/-- A value that is not blank. -/
def nonBlank (raw : Option String) : Option String := raw.filter fun v => trimmed v ≠ ""

/-! ## Reading settings -/

section Settings

variable (cli : Cli) (get : String → Option String)

/-- A setting that is refused when it is set to something else. -/
def strictSetting {α : Type} (parse : String → Option α) (name : String) (default : α) :
    Except String α :=
  (transpose ((get name).map (parseEnvValue parse name))).map (·.getD default)

/-- A setting that falls back to its default. -/
def lenientSetting {α : Type} (parse : String → Option α) (name : String) (default : α) : α :=
  ((get name).bind parse).getD default

def networkSetting : Except String StellarNetwork :=
  match cli.network <|> get "STELLAR_NETWORK" with
  | some networkRaw => StellarNetwork.parse networkRaw
  | none => .error "STELLAR_NETWORK is required"

def pollIntervalSetting : Except String ℕ :=
  match cli.pollInterval <|> (get "POLL_INTERVAL_SECONDS").bind parseU64 with
  | some pollIntervalSeconds =>
    if pollIntervalSeconds = 0 then .error "POLL_INTERVAL_SECONDS must be > 0"
    else .ok pollIntervalSeconds
  | none => .error "POLL_INTERVAL_SECONDS is required and must be a number"

/-- `API_PORT` takes precedence over `PORT`. -/
def apiPortSetting : Except String ℕ :=
  match get "API_PORT" with
  | some raw => parseEnvValue (parseUnsigned 65535) "API_PORT" raw
  | none =>
    match get "PORT" with
    | some raw => parseEnvValue (parseUnsigned 65535) "PORT" raw
    | none => .ok 8080

def alertThresholdSetting : Except String SpikeSeverity :=
  (transpose ((get "ALERT_THRESHOLD").map parseSpikeSeverity)).map (·.getD .major)

def enabledAlertTypesSetting : Except String (List String) :=
  match get "ENABLED_ALERT_TYPES" with
  | some raw =>
    match (commaSeparated raw).find? fun alertType => !validAlertTypes.contains alertType with
    | some alertType => .error ("Invalid ENABLED_ALERT_TYPES entry: " ++ alertType)
    | none => .ok (commaSeparated raw)
  | none => .ok validAlertTypes

def recommendationSettings : RecommendationSettings :=
  let recDefaults := RecommendationSettings.default
  { defaultConfidence := lenientSetting get parseF64 "REC_DEFAULT_CONFIDENCE"
      recDefaults.defaultConfidence
    defaultLedgers := lenientSetting get (parseUnsigned 255) "REC_DEFAULT_LEDGERS"
      recDefaults.defaultLedgers
    historyWindowSecs := lenientSetting get parseU64 "REC_HISTORY_WINDOW_SECS"
      recDefaults.historyWindowSecs
    cacheTtlSecs := lenientSetting get parseU64 "REC_CACHE_TTL_SECS" recDefaults.cacheTtlSecs
    minSampleCount := lenientSetting get parseU64 "REC_MIN_SAMPLE_COUNT"
      recDefaults.minSampleCount }

/-- `Config::from_sources_with_env`. -/
def Config.fromSourcesWithEnv : Except String Config := do
  let stellarNetwork ← networkSetting cli get
  let horizonUrl := (cli.horizonUrl <|> get "HORIZON_URL").getD stellarNetwork.defaultHorizonUrl
  let pollIntervalSeconds ← pollIntervalSetting cli get
  let apiPort ← apiPortSetting get
  let cacheTtlSeconds ← strictSetting get parseU64 "CACHE_TTL_SECONDS" 5
  let apiKey := nonBlank (get "API_KEY")
  let rateLimitPerMinute := lenientSetting get
    (fun v => (parseUnsigned u32Max v).filter (0 < ·)) "RATE_LIMIT_PER_MINUTE" 60
  let webhookUrl := nonBlank (get "WEBHOOK_URL")
  let alertThreshold ← alertThresholdSetting get
  let enabledAlertTypes ← enabledAlertTypesSetting get
  let staleDataThresholdSeconds := lenientSetting get
    (fun v => (parseI64 v).filter (0 < ·)) "STALE_DATA_THRESHOLD_SECONDS" 300
  let allowedOrigins := commaSeparated ((get "ALLOWED_ORIGINS").getD "http://localhost:3000")
  let retryAttempts ← strictSetting get (parseUnsigned u32Max) "RETRY_ATTEMPTS" 3
  let baseRetryDelayMs ← strictSetting get parseU64 "BASE_RETRY_DELAY_MS" 1000
  let databaseUrl := (get "DATABASE_URL").getD "sqlite://stellar_fees.db"
  let storageRetentionDays ← strictSetting get parseU64 "STORAGE_RETENTION_DAYS" 7
  return {
    stellarNetwork, horizonUrl, pollIntervalSeconds, cacheTtlSeconds, apiKey, rateLimitPerMinute,
    webhookUrl, alertThreshold, apiPort, allowedOrigins, retryAttempts, baseRetryDelayMs,
    databaseUrl, storageRetentionDays, recommendation := recommendationSettings get,
    enabledAlertTypes, staleDataThresholdSeconds }

end Settings

/-! ## What is refused -/

section Faults

def fault {α : Type} : Except String α → Option String
  | .error e => some e
  | .ok _ => none

/-- What is wrong with the settings, in the order in which they are read. -/
def Config.faults (cli : Cli) (get : String → Option String) : List String :=
  [fault (networkSetting cli get), fault (pollIntervalSetting cli get), fault (apiPortSetting get),
    fault (strictSetting get parseU64 "CACHE_TTL_SECONDS" 5), fault (alertThresholdSetting get),
    fault (enabledAlertTypesSetting get),
    fault (strictSetting get (parseUnsigned u32Max) "RETRY_ATTEMPTS" 3),
    fault (strictSetting get parseU64 "BASE_RETRY_DELAY_MS" 1000),
    fault (strictSetting get parseU64 "STORAGE_RETENTION_DAYS" 7)].reduceOption

/-- A step fails with its own fault, or with the first one of the steps behind it. -/
theorem bind_eq_error_iff {α β : Type} {x : Except String α} {f : α → Except String β} {e : String}
    {rest : List (Option String)}
    (h : ∀ a, f a = .error e ↔ rest.reduceOption.head? = some e) :
    x >>= f = .error e ↔ (fault x :: rest).reduceOption.head? = some e := by
  cases x with
  | error e' =>
    show Except.error e' = .error e ↔ some e' = some e
    rw [Except.error.injEq, Option.some.injEq]
  | ok a => exact h a

/-- The error is the first of the faults. -/
theorem Config.fromSourcesWithEnv_eq_error_iff {cli : Cli} {get : String → Option String}
    {e : String} :
    fromSourcesWithEnv cli get = .error e ↔ (faults cli get).head? = some e := by
  apply bind_eq_error_iff; intro stellarNetwork
  apply bind_eq_error_iff; intro pollIntervalSeconds
  apply bind_eq_error_iff; intro apiPort
  apply bind_eq_error_iff; intro cacheTtlSeconds
  apply bind_eq_error_iff; intro alertThreshold
  apply bind_eq_error_iff; intro enabledAlertTypes
  apply bind_eq_error_iff; intro retryAttempts
  apply bind_eq_error_iff; intro baseRetryDelayMs
  apply bind_eq_error_iff; intro storageRetentionDays
  exact iff_of_false (fun h => nomatch h) (fun h => nomatch h)

end Faults

/-! ## What is read -/

/-- What the settings of a running program meet. -/
structure Config.WellFormed (config : Config) : Prop where
  pollInterval_pos : 0 < config.pollIntervalSeconds
  pollInterval_le : config.pollIntervalSeconds ≤ u64Max
  cacheTtl_le : config.cacheTtlSeconds ≤ u64Max
  apiKey_ne : ∀ key ∈ config.apiKey, trimmed key ≠ ""
  rateLimit_pos : 0 < config.rateLimitPerMinute
  rateLimit_le : config.rateLimitPerMinute ≤ u32Max
  webhookUrl_ne : ∀ url ∈ config.webhookUrl, trimmed url ≠ ""
  apiPort_le : config.apiPort ≤ 65535
  allowedOrigins : ∀ origin ∈ config.allowedOrigins, IsPiece Uri.isWhiteSpace ',' origin.toList
  retryAttempts_le : config.retryAttempts ≤ u32Max
  baseRetryDelay_le : config.baseRetryDelayMs ≤ u64Max
  storageRetention_le : config.storageRetentionDays ≤ u64Max
  defaultLedgers_le : config.recommendation.defaultLedgers ≤ 255
  historyWindow_le : config.recommendation.historyWindowSecs ≤ u64Max
  recCacheTtl_le : config.recommendation.cacheTtlSecs ≤ u64Max
  minSampleCount_le : config.recommendation.minSampleCount ≤ u64Max
  enabledAlertTypes : ∀ alertType ∈ config.enabledAlertTypes, alertType ∈ validAlertTypes
  staleDataThreshold_pos : 0 < config.staleDataThresholdSeconds
  staleDataThreshold_le : config.staleDataThresholdSeconds ≤ 9223372036854775807

section Read

variable {cli : Cli} {get : String → Option String} {α : Type} {parse : String → Option α}
  {name : String} {P : α → Prop}

theorem parseEnvValue_eq_ok_iff {raw : String} {value : α} :
    parseEnvValue parse name raw = .ok value ↔ parse (trimmed raw) = some value := by
  unfold parseEnvValue
  split <;> simp_all

/-- A strict setting is its default or was read. -/
theorem of_strictSetting {default value : α} (hparse : ∀ s value, parse s = some value → P value)
    (hdefault : P default) (h : strictSetting get parse name default = .ok value) : P value := by
  unfold strictSetting at h
  cases hget : get name with
  | none =>
    rw [hget] at h
    exact Except.ok.inj h ▸ hdefault
  | some raw =>
    rw [hget, Option.map_some] at h
    cases hraw : parseEnvValue parse name raw with
    | error e =>
      rw [hraw] at h
      cases h
    | ok read =>
      rw [hraw] at h
      exact Except.ok.inj h ▸ hparse _ _ (parseEnvValue_eq_ok_iff.1 hraw)

theorem of_lenientSetting {default : α} (hparse : ∀ s value, parse s = some value → P value)
    (hdefault : P default) : P (lenientSetting get parse name default) := by
  unfold lenientSetting
  cases h : (get name).bind parse with
  | none => exact hdefault
  | some value =>
    obtain ⟨raw, -, hraw⟩ := Option.bind_eq_some_iff.1 h
    exact hparse _ _ hraw

theorem parseUnsigned_le {max n : ℕ} {s : String} (h : parseUnsigned max s = some n) : n ≤ max := by
  simpa using (Option.filter_eq_some_iff.1 h).2

theorem parseI64_le {s : String} {n : ℤ} (h : parseI64 s = some n) : n ≤ 9223372036854775807 := by
  unfold parseI64 at h
  split at h
  · obtain ⟨m, -, rfl⟩ := Option.map_eq_some_iff.1 (Option.filter_eq_some_iff.1 h).1
    show -(m : ℤ) ≤ 9223372036854775807
    omega
  · simpa using (Option.filter_eq_some_iff.1 h).2
  · simpa using (Option.filter_eq_some_iff.1 h).2

theorem pollIntervalSetting_mem {n : ℕ} (h : pollIntervalSetting cli get = .ok n) :
    0 < n ∧ n ≤ u64Max := by
  unfold pollIntervalSetting at h
  split at h
  · next pollIntervalSeconds hread =>
    split at h
    · cases h
    · next hzero =>
      obtain rfl := Except.ok.inj h
      refine ⟨Nat.pos_of_ne_zero hzero, ?_⟩
      cases hflag : cli.pollInterval with
      | some flag =>
        rw [hflag] at hread
        exact cli.pollInterval_le _ (hflag.trans hread)
      | none =>
        rw [hflag] at hread
        obtain ⟨raw, -, hraw⟩ := Option.bind_eq_some_iff.1 hread
        exact parseU64_le hraw
  · cases h

theorem apiPortSetting_le {n : ℕ} (h : apiPortSetting get = .ok n) : n ≤ 65535 := by
  unfold apiPortSetting at h
  split at h
  · exact parseUnsigned_le (parseEnvValue_eq_ok_iff.1 h)
  · split at h
    · exact parseUnsigned_le (parseEnvValue_eq_ok_iff.1 h)
    · obtain rfl := Except.ok.inj h
      omega

theorem enabledAlertTypesSetting_subset {types : List String}
    (h : enabledAlertTypesSetting get = .ok types) :
    ∀ alertType ∈ types, alertType ∈ validAlertTypes := by
  unfold enabledAlertTypesSetting at h
  split at h
  · split at h
    · cases h
    · next hfind =>
      obtain rfl := Except.ok.inj h
      simpa using List.find?_eq_none.1 hfind
  · obtain rfl := Except.ok.inj h
    exact fun alertType h => h

theorem trimmed_ne_of_mem_nonBlank {raw : Option String} {value : String}
    (h : value ∈ nonBlank raw) : trimmed value ≠ "" := by
  simpa using (Option.filter_eq_some_iff.1 h).2

theorem isPiece_of_mem_commaSeparated {raw entry : String} (h : entry ∈ commaSeparated raw) :
    IsPiece Uri.isWhiteSpace ',' entry.toList := by
  obtain ⟨piece, hpiece, rfl⟩ := List.mem_map.1 h
  rw [String.toList_ofList]
  exact isPiece_of_mem_pieces hpiece

/-- A configuration that is read is well formed. -/
theorem Config.wellFormed_of_fromSourcesWithEnv {config : Config}
    (h : fromSourcesWithEnv cli get = .ok config) : config.WellFormed := by
  unfold fromSourcesWithEnv at h
  obtain ⟨stellarNetwork, -, h⟩ := exists_ok_of_bind h
  obtain ⟨pollIntervalSeconds, hpoll, h⟩ := exists_ok_of_bind h
  obtain ⟨apiPort, hport, h⟩ := exists_ok_of_bind h
  obtain ⟨cacheTtlSeconds, hcache, h⟩ := exists_ok_of_bind h
  obtain ⟨alertThreshold, -, h⟩ := exists_ok_of_bind h
  obtain ⟨enabledAlertTypes, htypes, h⟩ := exists_ok_of_bind h
  obtain ⟨retryAttempts, hattempts, h⟩ := exists_ok_of_bind h
  obtain ⟨baseRetryDelayMs, hdelay, h⟩ := exists_ok_of_bind h
  obtain ⟨storageRetentionDays, hretention, h⟩ := exists_ok_of_bind h
  obtain rfl := Except.ok.inj h
  have hu64 : ∀ s n, parseU64 s = some n → n ≤ u64Max := fun _ _ => parseU64_le
  have hu32 : ∀ s n, parseUnsigned u32Max s = some n → n ≤ u32Max := fun _ _ => parseUnsigned_le
  have hrate : ∀ s n, (parseUnsigned u32Max s).filter (0 < ·) = some n → 0 < n ∧ n ≤ u32Max := by
    intro s n hread
    obtain ⟨hparse, hpos⟩ := Option.filter_eq_some_iff.1 hread
    exact ⟨of_decide_eq_true hpos, parseUnsigned_le hparse⟩
  have hstale : ∀ s n, (parseI64 s).filter (0 < ·) = some n → 0 < n ∧ n ≤ 9223372036854775807 := by
    intro s n hread
    obtain ⟨hparse, hpos⟩ := Option.filter_eq_some_iff.1 hread
    exact ⟨of_decide_eq_true hpos, parseI64_le hparse⟩
  exact
    { pollInterval_pos := (pollIntervalSetting_mem hpoll).1
      pollInterval_le := (pollIntervalSetting_mem hpoll).2
      cacheTtl_le := of_strictSetting (P := (· ≤ u64Max)) hu64 (by decide) hcache
      apiKey_ne := fun _ => trimmed_ne_of_mem_nonBlank
      rateLimit_pos :=
        (of_lenientSetting (P := fun n => 0 < n ∧ n ≤ u32Max) hrate (by decide)).1
      rateLimit_le :=
        (of_lenientSetting (P := fun n => 0 < n ∧ n ≤ u32Max) hrate (by decide)).2
      webhookUrl_ne := fun _ => trimmed_ne_of_mem_nonBlank
      apiPort_le := apiPortSetting_le hport
      allowedOrigins := fun _ => isPiece_of_mem_commaSeparated
      retryAttempts_le := of_strictSetting (P := (· ≤ u32Max)) hu32 (by decide) hattempts
      baseRetryDelay_le := of_strictSetting (P := (· ≤ u64Max)) hu64 (by decide) hdelay
      storageRetention_le := of_strictSetting (P := (· ≤ u64Max)) hu64 (by decide) hretention
      defaultLedgers_le :=
        of_lenientSetting (P := (· ≤ 255)) (fun _ _ => parseUnsigned_le) (by decide)
      historyWindow_le := of_lenientSetting (P := (· ≤ u64Max)) hu64 (by decide)
      recCacheTtl_le := of_lenientSetting (P := (· ≤ u64Max)) hu64 (by decide)
      minSampleCount_le := of_lenientSetting (P := (· ≤ u64Max)) hu64 (by decide)
      enabledAlertTypes := enabledAlertTypesSetting_subset htypes
      staleDataThreshold_pos := (of_lenientSetting
        (P := fun n => 0 < n ∧ n ≤ 9223372036854775807) hstale (by decide)).1
      staleDataThreshold_le := (of_lenientSetting
        (P := fun n => 0 < n ∧ n ≤ 9223372036854775807) hstale (by decide)).2 }

end Read

/-! ## Flags -/

/-- The environment in which the flags are variables. -/
def Cli.override (cli : Cli) (get : String → Option String) : String → Option String
  | "STELLAR_NETWORK" => cli.network <|> get "STELLAR_NETWORK"
  | "HORIZON_URL" => cli.horizonUrl <|> get "HORIZON_URL"
  | "POLL_INTERVAL_SECONDS" => cli.pollInterval.map toString <|> get "POLL_INTERVAL_SECONDS"
  | name => get name

/-- A flag does what its variable does, and stands before it. -/
theorem Config.fromSourcesWithEnv_eq_noFlags (cli : Cli) (get : String → Option String) :
    fromSourcesWithEnv cli get = fromSourcesWithEnv .noFlags (cli.override get) := by
  have hnetwork : networkSetting cli get = networkSetting .noFlags (cli.override get) := rfl
  have hurl : (cli.horizonUrl <|> get "HORIZON_URL") =
      (Cli.noFlags.horizonUrl <|> cli.override get "HORIZON_URL") := rfl
  have hpoll : pollIntervalSetting cli get = pollIntervalSetting .noFlags (cli.override get) := by
    have hread : (cli.pollInterval <|> (get "POLL_INTERVAL_SECONDS").bind parseU64) =
        (cli.override get "POLL_INTERVAL_SECONDS").bind parseU64 := by
      show _ = (cli.pollInterval.map toString <|> get "POLL_INTERVAL_SECONDS").bind parseU64
      cases hflag : cli.pollInterval with
      | none => rfl
      | some n => exact (parseU64_toString (cli.pollInterval_le n hflag)).symm
    unfold pollIntervalSetting
    rw [hread]
    rfl
  unfold fromSourcesWithEnv
  rw [hnetwork, hurl, hpoll]
  rfl

/-! ## Every well-formed configuration is read -/

section Spelled

def SpikeSeverity.word : SpikeSeverity → String
  | minor => "minor"
  | moderate => "moderate"
  | major => "major"
  | critical => "critical"

/-- A text of the number of a float. -/
def FloatLiteral.toText : FloatLiteral → String
  | finite negative digits exponent =>
    (if negative then "-" else "") ++ toString digits ++ "e" ++ toString exponent
  | infinite negative => if negative then "-inf" else "inf"
  | nan => "nan"

/-- The environment that spells a configuration out. -/
def Config.toEnv (config : Config) : String → Option String
  | "STELLAR_NETWORK" => some config.stellarNetwork.asStr
  | "HORIZON_URL" => some config.horizonUrl
  | "POLL_INTERVAL_SECONDS" => some (toString config.pollIntervalSeconds)
  | "API_PORT" => some (toString config.apiPort)
  | "CACHE_TTL_SECONDS" => some (toString config.cacheTtlSeconds)
  | "API_KEY" => config.apiKey
  | "RATE_LIMIT_PER_MINUTE" => some (toString config.rateLimitPerMinute)
  | "WEBHOOK_URL" => config.webhookUrl
  | "ALERT_THRESHOLD" => some config.alertThreshold.word
  | "ENABLED_ALERT_TYPES" => some (",".intercalate config.enabledAlertTypes)
  | "STALE_DATA_THRESHOLD_SECONDS" => some (toString config.staleDataThresholdSeconds)
  | "ALLOWED_ORIGINS" => some (",".intercalate config.allowedOrigins)
  | "RETRY_ATTEMPTS" => some (toString config.retryAttempts)
  | "BASE_RETRY_DELAY_MS" => some (toString config.baseRetryDelayMs)
  | "DATABASE_URL" => some config.databaseUrl
  | "STORAGE_RETENTION_DAYS" => some (toString config.storageRetentionDays)
  | "REC_DEFAULT_CONFIDENCE" => some config.recommendation.defaultConfidence.toText
  | "REC_DEFAULT_LEDGERS" => some (toString config.recommendation.defaultLedgers)
  | "REC_HISTORY_WINDOW_SECS" => some (toString config.recommendation.historyWindowSecs)
  | "REC_CACHE_TTL_SECS" => some (toString config.recommendation.cacheTtlSecs)
  | "REC_MIN_SAMPLE_COUNT" => some (toString config.recommendation.minSampleCount)
  | _ => none

theorem isWhiteSpace_of_isDigit {c : Char} (h : c.isDigit = true) : Uri.isWhiteSpace c = false := by
  have hdigits : Uri.whiteSpace.all (fun c => !c.isDigit) = true := rfl
  by_contra hspace
  have hmem : c ∈ Uri.whiteSpace := by simpa [Uri.isWhiteSpace] using hspace
  have hnot := List.all_eq_true.1 hdigits c hmem
  rw [h] at hnot
  cases hnot

theorem toList_toString (n : ℕ) : (toString n).toList = Nat.toDigits 10 n := by
  rw [Nat.toString_eq_ofList_toDigits, String.toList_ofList]

theorem isDigit_of_mem_toString {n : ℕ} {c : Char} (h : c ∈ (toString n).toList) :
    c.isDigit = true := by
  rw [toList_toString] at h
  exact Nat.isDigit_of_mem_toDigits (by decide) (by decide) h

theorem trimmed_toString (n : ℕ) : trimmed (toString n) = toString n := by
  unfold trimmed
  rw [Uri.trim_of_forall fun c hc => isWhiteSpace_of_isDigit (isDigit_of_mem_toString hc),
    String.ofList_toList]

theorem parseUnsigned_toString {max n : ℕ} (hmax : max ≤ u64Max) (hn : n ≤ max) :
    parseUnsigned max (toString n) = some n := by
  unfold parseUnsigned
  rw [parseU64_toString (hn.trans hmax)]
  exact Option.filter_eq_some_iff.2 ⟨rfl, decide_eq_true hn⟩

theorem unsignedDigits_toString (n : ℕ) : unsignedDigits (toString n).toList = some n := by
  have hdigits : (toString n).toList.all Char.isDigit = true :=
    List.all_eq_true.2 fun c hc => isDigit_of_mem_toString hc
  have hne : (toString n).toList.isEmpty = false := by
    rw [toList_toString, List.isEmpty_eq_false_iff]
    exact Nat.toDigits_ne_nil
  have hvalue : (toString n).toList.foldl (fun n c => 10 * n + (c.toNat - '0'.toNat)) 0 = n := by
    rw [toList_toString]
    exact Nat.ofDigitChars_toDigits (by decide) (by decide)
  unfold unsignedDigits
  rw [hdigits, hne, hvalue]
  rfl

/-- The text of a number starts with a digit. -/
theorem exists_toList_toString (n : ℕ) :
    ∃ first rest, (toString n).toList = first :: rest ∧
      ∀ c : Char, c.isDigit = false → first ≠ c := by
  obtain ⟨first, rest, htext⟩ :=
    List.exists_cons_of_ne_nil (Nat.toDigits_ne_nil (n := n) (b := 10))
  have hfirst : first.isDigit = true := by
    apply isDigit_of_mem_toString (n := n)
    rw [toList_toString, htext]
    exact List.mem_cons_self
  refine ⟨first, rest, (toList_toString n).trans htext, ?_⟩
  rintro c hc rfl
  rw [hc] at hfirst
  cases hfirst

theorem parseI64_toString {n : ℕ} (h : (n : ℤ) ≤ 9223372036854775807) :
    parseI64 (toString (n : ℤ)) = some (n : ℤ) := by
  obtain ⟨first, rest, htext, hsign⟩ := exists_toList_toString n
  have hread := unsignedDigits_toString n
  have hchars : (toString (n : ℤ)).toList = first :: rest := htext
  rw [htext] at hread
  unfold parseI64
  rw [hchars]
  split
  · next heq => exact absurd (List.cons.inj heq).1 (hsign '-' rfl)
  · next heq => exact absurd (List.cons.inj heq).1 (hsign '+' rfl)
  · rw [hread]
    exact Option.filter_eq_some_iff.2 ⟨rfl, decide_eq_true h⟩

theorem floatExponent_toString (exponent : ℤ) :
    floatExponent ('e' :: (toString exponent).toList) = some exponent := by
  cases exponent with
  | ofNat n =>
    obtain ⟨first, rest, htext, hsign⟩ := exists_toList_toString n
    have hread := unsignedDigits_toString n
    have hchars : (toString (Int.ofNat n)).toList = first :: rest := htext
    rw [htext] at hread
    unfold floatExponent
    rw [hchars]
    dsimp only
    rw [if_pos (Or.inl rfl)]
    split
    · next heq => exact absurd (List.cons.inj heq).1 (hsign '-' rfl)
    · next heq => exact absurd (List.cons.inj heq).1 (hsign '+' rfl)
    · rw [hread]
      rfl
  | negSucc n =>
    have hchars : (toString (Int.negSucc n)).toList = '-' :: (toString (n + 1)).toList := by
      show ("-" ++ toString (n + 1)).toList = _
      rw [String.toList_append]
      rfl
    unfold floatExponent
    rw [hchars]
    dsimp only
    rw [if_pos (Or.inl rfl)]
    show Option.map _ (unsignedDigits (toString (n + 1)).toList >>= _) = _
    rw [unsignedDigits_toString]
    rfl

theorem toLower_of_isDigit {c : Char} (h : c.isDigit = true) : c.toLower = c := by
  unfold Char.isDigit at h
  unfold Char.toLower
  rw [dif_neg]
  rintro ⟨hupper, -⟩
  have hdigit : c.val ≤ '9'.val := of_decide_eq_true (Bool.and_eq_true_iff.1 h).2
  exact absurd (UInt32.le_trans hupper hdigit) (by decide)

theorem unsignedFloat_toString (negative : Bool) (digits : ℕ) (exponent : ℤ) :
    unsignedFloat negative ((toString digits).toList ++ 'e' :: (toString exponent).toList) =
      some (.finite negative digits exponent) := by
  have hall : ∀ c ∈ (toString digits).toList, c.isDigit = true := fun c => isDigit_of_mem_toString
  have htake : ((toString digits).toList ++ 'e' :: (toString exponent).toList).takeWhile
      Char.isDigit = (toString digits).toList := by
    rw [List.takeWhile_append_of_pos hall, List.takeWhile_cons_of_neg (by decide), List.append_nil]
  have hdrop : ((toString digits).toList ++ 'e' :: (toString exponent).toList).dropWhile
      Char.isDigit = 'e' :: (toString exponent).toList := by
    rw [List.dropWhile_append_of_pos hall, List.dropWhile_cons_of_neg (by decide)]
  -- A digit at the start is in none of the words for what is not finite.
  have hword : ∀ (c : Char) (word : List Char), c.isDigit = false →
      String.ofList (((toString digits).toList ++ 'e' :: (toString exponent).toList).map
        Char.toLower) ≠ String.ofList (c :: word) := by
    intro c word hc h
    obtain ⟨first, rest, htext, hne⟩ := exists_toList_toString digits
    have hfirst : first.isDigit = true :=
      isDigit_of_mem_toString (n := digits) (htext ▸ List.mem_cons_self)
    have hchars := String.ofList_injective h
    rw [htext, List.cons_append, List.map_cons, toLower_of_isDigit hfirst] at hchars
    exact hne c hc (List.cons.inj hchars).1
  unfold unsignedFloat
  dsimp only
  rw [if_neg (not_or.2 ⟨hword 'i' ['n', 'f'] rfl, hword 'i' ['n', 'f', 'i', 'n', 'i', 't', 'y'] rfl⟩),
    if_neg (hword 'n' ['a', 'n'] rfl), htake, hdrop]
  show (unsignedDigits ((toString digits).toList ++ []) >>= fun digits =>
    floatExponent ('e' :: (toString exponent).toList) >>= fun exponent =>
      some (FloatLiteral.finite negative digits (exponent - 0))) = _
  rw [List.append_nil, unsignedDigits_toString, floatExponent_toString]
  show some (FloatLiteral.finite negative digits (exponent - 0)) = _
  rw [sub_zero]

theorem parseF64_toText (literal : FloatLiteral) : parseF64 literal.toText = some literal := by
  cases literal with
  | nan => decide
  | infinite negative => cases negative <;> decide
  | finite negative digits exponent =>
    have htext : ∀ front : String, (front ++ toString digits ++ "e" ++ toString exponent).toList =
        front.toList ++ ((toString digits).toList ++ 'e' :: (toString exponent).toList) := by
      intro front
      simp only [String.toList_append, List.append_assoc]
      rfl
    have hread := unsignedFloat_toString negative digits exponent
    cases negative with
    | true =>
      show (match ("-" ++ toString digits ++ "e" ++ toString exponent).toList with
        | '-' :: rest => unsignedFloat true rest
        | '+' :: rest => unsignedFloat false rest
        | chars => unsignedFloat false chars) = _
      rw [htext]
      exact hread
    | false =>
      obtain ⟨first, rest, hchars, hne⟩ := exists_toList_toString digits
      show (match ("" ++ toString digits ++ "e" ++ toString exponent).toList with
        | '-' :: rest => unsignedFloat true rest
        | '+' :: rest => unsignedFloat false rest
        | chars => unsignedFloat false chars) = _
      rw [hchars, List.cons_append] at hread
      rw [htext, hchars, List.cons_append, String.toList_empty, List.nil_append]
      split
      · next heq => exact absurd (List.cons.inj heq).1 (hne '-' rfl)
      · next heq => exact absurd (List.cons.inj heq).1 (hne '+' rfl)
      · exact hread

theorem parseSpikeSeverity_word (severity : SpikeSeverity) :
    parseSpikeSeverity severity.word = .ok severity := by
  cases severity <;> decide

theorem commaSeparated_intercalate {list : List String}
    (h : ∀ entry ∈ list, IsPiece Uri.isWhiteSpace ',' entry.toList) :
    commaSeparated (",".intercalate list) = list := by
  unfold commaSeparated
  rw [String.toList_intercalate]
  show (pieces Uri.isWhiteSpace ',' ([','].intercalate (list.map String.toList))).map _ = _
  rw [pieces_intercalate, List.map_map]
  · have hback : String.ofList ∘ String.toList = id := by
      funext entry
      exact String.ofList_toList
    rw [hback, List.map_id]
  · intro piece hpiece
    obtain ⟨entry, hentry, rfl⟩ := List.mem_map.1 hpiece
    exact h entry hentry

theorem isPiece_of_mem_validAlertTypes {alertType : String} (h : alertType ∈ validAlertTypes) :
    IsPiece Uri.isWhiteSpace ',' alertType.toList := by
  have hall : ∀ alertType ∈ validAlertTypes, alertType.toList ≠ [] ∧
      trimBy Uri.isWhiteSpace alertType.toList = alertType.toList ∧ ',' ∉ alertType.toList := by
    decide
  obtain ⟨hne, htrimmed, hsep⟩ := hall alertType h
  exact { ne_nil := hne, trimmed := htrimmed, sep_notMem := hsep }

variable {get : String → Option String} {α : Type} {parse : String → Option α} {name raw : String}
  {value default : α}

theorem strictSetting_of_some (hget : get name = some raw) (htrimmed : trimmed raw = raw)
    (hparse : parse raw = some value) : strictSetting get parse name default = .ok value := by
  unfold strictSetting
  rw [hget, Option.map_some, parseEnvValue_eq_ok_iff.2 (htrimmed.symm ▸ hparse)]
  rfl

theorem lenientSetting_of_some (hget : get name = some raw) (hparse : parse raw = some value) :
    lenientSetting get parse name default = value := by
  unfold lenientSetting
  rw [hget, Option.bind_some, hparse]
  rfl

theorem nonBlank_eq_self {raw : Option String} (h : ∀ value ∈ raw, trimmed value ≠ "") :
    nonBlank raw = raw := by
  cases raw with
  | none => rfl
  | some value => exact Option.filter_eq_some_iff.2 ⟨rfl, decide_eq_true (h value rfl)⟩

variable {config : Config}

theorem Config.recommendationSettings_toEnv (h : config.WellFormed) :
    recommendationSettings config.toEnv = config.recommendation := by
  have hconfidence : ∀ default, lenientSetting config.toEnv parseF64 "REC_DEFAULT_CONFIDENCE"
      default = config.recommendation.defaultConfidence :=
    fun _ => lenientSetting_of_some rfl (parseF64_toText _)
  have hledgers : ∀ default, lenientSetting config.toEnv (parseUnsigned 255) "REC_DEFAULT_LEDGERS"
      default = config.recommendation.defaultLedgers :=
    fun _ => lenientSetting_of_some rfl (parseUnsigned_toString (by decide) h.defaultLedgers_le)
  have hwhole : ∀ {name : String} {n : ℕ} default, config.toEnv name = some (toString n) →
      n ≤ u64Max → lenientSetting config.toEnv parseU64 name default = n :=
    fun _ hget hn => lenientSetting_of_some hget (parseU64_toString hn)
  unfold recommendationSettings
  dsimp only
  rw [hconfidence, hledgers, hwhole _ rfl h.historyWindow_le, hwhole _ rfl h.recCacheTtl_le,
    hwhole _ rfl h.minSampleCount_le]

theorem Config.enabledAlertTypesSetting_toEnv (h : config.WellFormed) :
    enabledAlertTypesSetting config.toEnv = .ok config.enabledAlertTypes := by
  have hread : commaSeparated (",".intercalate config.enabledAlertTypes) =
      config.enabledAlertTypes :=
    commaSeparated_intercalate fun alertType hmem =>
      isPiece_of_mem_validAlertTypes (h.enabledAlertTypes alertType hmem)
  have hvalid : (config.enabledAlertTypes.find? fun t => !validAlertTypes.contains t) = none := by
    simpa using h.enabledAlertTypes
  have hget : config.toEnv "ENABLED_ALERT_TYPES" =
      some (",".intercalate config.enabledAlertTypes) := rfl
  unfold enabledAlertTypesSetting
  rw [hget]
  dsimp only
  rw [hread, hvalid]

/-- A well-formed configuration is read from the environment that spells it out. -/
theorem Config.fromSourcesWithEnv_toEnv (h : config.WellFormed) :
    fromSourcesWithEnv .noFlags config.toEnv = .ok config := by
  have hnetwork : networkSetting .noFlags config.toEnv = .ok config.stellarNetwork := by
    show StellarNetwork.parse config.stellarNetwork.asStr = _
    cases config.stellarNetwork <;> rfl
  have hpoll : pollIntervalSetting .noFlags config.toEnv = .ok config.pollIntervalSeconds := by
    have hget : (Cli.noFlags.pollInterval <|>
        (config.toEnv "POLL_INTERVAL_SECONDS").bind parseU64) = some config.pollIntervalSeconds :=
      parseU64_toString h.pollInterval_le
    unfold pollIntervalSetting
    rw [hget]
    exact if_neg h.pollInterval_pos.ne'
  have hport : apiPortSetting config.toEnv = .ok config.apiPort := by
    have hget : config.toEnv "API_PORT" = some (toString config.apiPort) := rfl
    unfold apiPortSetting
    rw [hget]
    apply parseEnvValue_eq_ok_iff.2
    rw [trimmed_toString]
    exact parseUnsigned_toString (by decide) h.apiPort_le
  have hseverity : alertThresholdSetting config.toEnv = .ok config.alertThreshold := by
    have hget : config.toEnv "ALERT_THRESHOLD" = some config.alertThreshold.word := rfl
    unfold alertThresholdSetting
    rw [hget, Option.map_some, parseSpikeSeverity_word]
    rfl
  have hstrict : ∀ {name : String} {n : ℕ} default, config.toEnv name = some (toString n) →
      n ≤ u64Max → strictSetting config.toEnv parseU64 name default = .ok n :=
    fun _ hget hn => strictSetting_of_some hget (trimmed_toString _) (parseU64_toString hn)
  have hattempts : strictSetting config.toEnv (parseUnsigned u32Max) "RETRY_ATTEMPTS" 3 =
      .ok config.retryAttempts :=
    strictSetting_of_some rfl (trimmed_toString _)
      (parseUnsigned_toString (by decide) h.retryAttempts_le)
  have hrate : lenientSetting config.toEnv (fun v => (parseUnsigned u32Max v).filter (0 < ·))
      "RATE_LIMIT_PER_MINUTE" 60 = config.rateLimitPerMinute :=
    lenientSetting_of_some rfl (Option.filter_eq_some_iff.2
      ⟨parseUnsigned_toString (by decide) h.rateLimit_le, decide_eq_true h.rateLimit_pos⟩)
  have hstale : lenientSetting config.toEnv (fun v => (parseI64 v).filter (0 < ·))
      "STALE_DATA_THRESHOLD_SECONDS" 300 = config.staleDataThresholdSeconds := by
    obtain ⟨n, hn⟩ := Int.eq_ofNat_of_zero_le h.staleDataThreshold_pos.le
    have hle := h.staleDataThreshold_le
    have hpos := h.staleDataThreshold_pos
    have hget : config.toEnv "STALE_DATA_THRESHOLD_SECONDS" =
        some (toString config.staleDataThresholdSeconds) := rfl
    rw [hn] at hget hle hpos ⊢
    exact lenientSetting_of_some hget
      (Option.filter_eq_some_iff.2 ⟨parseI64_toString hle, decide_eq_true hpos⟩)
  have horigins : commaSeparated ((config.toEnv "ALLOWED_ORIGINS").getD "http://localhost:3000") =
      config.allowedOrigins := commaSeparated_intercalate h.allowedOrigins
  have hkey : nonBlank (config.toEnv "API_KEY") = config.apiKey := nonBlank_eq_self h.apiKey_ne
  have hurl : nonBlank (config.toEnv "WEBHOOK_URL") = config.webhookUrl :=
    nonBlank_eq_self h.webhookUrl_ne
  unfold fromSourcesWithEnv
  rw [hnetwork, hpoll, hport, hstrict 5 rfl h.cacheTtl_le, hseverity,
    enabledAlertTypesSetting_toEnv h, hattempts, hstrict 1000 rfl h.baseRetryDelay_le,
    hstrict 7 rfl h.storageRetention_le, hrate, hstale, horigins, hkey, hurl,
    recommendationSettings_toEnv h]
  rfl

/-- The configurations that the program starts with are exactly the well-formed ones, and each of them
is read back from the environment that spells it out. -/
theorem Config.exists_fromSourcesWithEnv_iff (config : Config) :
    ((∃ cli get, fromSourcesWithEnv cli get = .ok config) ↔ config.WellFormed) ∧
      (config.WellFormed → fromSourcesWithEnv .noFlags config.toEnv = .ok config) := by
  refine ⟨⟨?_, fun h => ?_⟩, fromSourcesWithEnv_toEnv⟩
  · rintro ⟨cli, get, h⟩
    exact wellFormed_of_fromSourcesWithEnv h
  · exact ⟨.noFlags, config.toEnv, fromSourcesWithEnv_toEnv h⟩

end Spelled

/-! ## The defaults -/

/-- The flags of a test network. -/
def testnetCli : Cli where
  network := some "testnet"
  horizonUrl := none
  pollInterval := some 30
  pollInterval_le := by simp [u64Max]

/-- The configuration that they make without any variable. -/
def testnetConfig : Config where
  stellarNetwork := .testnet
  horizonUrl := "https://horizon-testnet.stellar.org"
  pollIntervalSeconds := 30
  cacheTtlSeconds := 5
  apiKey := none
  rateLimitPerMinute := 60
  webhookUrl := none
  alertThreshold := .major
  apiPort := 8080
  allowedOrigins := ["http://localhost:3000"]
  retryAttempts := 3
  baseRetryDelayMs := 1000
  databaseUrl := "sqlite://stellar_fees.db"
  storageRetentionDays := 7
  recommendation := .default
  enabledAlertTypes := validAlertTypes
  staleDataThresholdSeconds := 300

theorem Config.fromSourcesWithEnv_testnet :
    fromSourcesWithEnv testnetCli (fun _ => none) = .ok testnetConfig := rfl

end StellarFeeTracker
