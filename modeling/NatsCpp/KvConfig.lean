import NatsCpp.Errors

/-!
# Creating a bucket

`key_value::create` copies a `kv_config` field by field into the `kvConfig` of
nats.c and passes that to `js_CreateKeyValue`. The numeric fields have the same
widths on both sides, except for the history: it has 64 bits here and 8 there,
and its assignment converts it without a check. Recorded are the calls that
carry the configuration; the handles that `create` makes and destroys are the
subject of `NatsCpp.OwningCalls`.
-/
namespace NatsCpp.KvBucket

/-- The conversion of an `int64_t` to a `uint8_t`. -/
def toByte (n : Int64) : UInt8 := n.toUInt64.toUInt8

theorem toNat_toByte (n : Int64) : ((toByte n).toNat : Int) = n.toInt % 256 := by
  have hbits : n.toInt = (n.toUInt64.toNat : Int).bmod (2 ^ 64) := by
    rw [← Int64.toInt_toBitVec, BitVec.toInt_eq_toNat_bmod, Int64.toNat_toBitVec]
  rw [toByte, UInt64.toNat_toUInt8, hbits, Int.bmod_def]
  split <;> omega

/-- The conversion keeps exactly the numbers that a byte can have. -/
theorem toByte_eq_iff (n : Int64) :
    ((toByte n).toNat : Int) = n.toInt ↔ 0 ≤ n.toInt ∧ n.toInt ≤ 255 := by
  rw [toNat_toByte]
  omega

/-- `js_storage_type`, `jsStorageType`. -/
inductive StorageType where
  | file
  | memory
  deriving DecidableEq

/-- `kv_config`. -/
structure Config where
  bucket : String := ""
  description : String := ""
  history : Int64 := 1
  ttlNs : Int64 := 0
  maxValueSize : Int32 := 0
  maxBytes : Int64 := 0
  storage : StorageType := .file
  replicas : Int32 := 1

/-- The fields of `kvConfig` that the wrapper sets. -/
structure NativeConfig where
  bucket : Option String
  description : Option String
  history : UInt8
  ttl : Int64
  maxValueSize : Int32
  maxBytes : Int64
  storageType : StorageType
  replicas : Int32
  deriving DecidableEq

/-- The assignments to a `kvConfig` that `kvConfig_Init` has written. -/
def Config.native (config : Config) (initial : NativeConfig) : NativeConfig where
  bucket := some config.bucket
  description := if config.description ≠ "" then some config.description else initial.description
  history := toByte config.history
  ttl := config.ttlNs
  maxValueSize := config.maxValueSize
  maxBytes := config.maxBytes
  storageType := config.storage
  replicas := config.replicas

inductive Call where
  | natsConnectionJetStream (nc : Option ℕ)
  | kvConfigInit
  | jsCreateKeyValue (js : Option ℕ) (cfg : NativeConfig)
  deriving DecidableEq

/-- What nats.c answers to the last of the calls made. -/
structure Answers where
  texts : ErrorTexts Call
  status : List Call → Status
  ctx : List Call → Option ℕ
  initial : List Call → NativeConfig
  kv : List Call → Option ℕ

/-- The handles of a `key_value` object. -/
structure KeyValue where
  ctx : Option ℕ
  kv : Option ℕ

section Create

variable (answers : Answers)

/-- `create(conn, config)`. -/
def create (conn : Option ℕ) (config : Config) : Program Call Error KeyValue := do
  let calls ← Program.call (.natsConnectionJetStream conn)
  throwOnError answers.texts (answers.status calls) "natsConnection_JetStream"
  let ctx := answers.ctx calls
  let calls ← Program.call .kvConfigInit
  throwOnError answers.texts (answers.status calls) "kvConfig_Init"
  let cfg := config.native (answers.initial calls)
  let calls ← Program.call (.jsCreateKeyValue ctx cfg)
  throwOnError answers.texts (answers.status calls) "js_CreateKeyValue"
  pure ⟨ctx, answers.kv calls⟩

/-- `create(conn, bucket, history)`; the history may be left out. -/
def createNamed (conn : Option ℕ) (bucket : String) (history : Option Int64) :
    Program Call Error KeyValue :=
  create answers conn { bucket := bucket, history := history.getD 1 }

end Create

/-- A call of one of the two overloads. -/
inductive Request where
  | full (conn : Option ℕ) (config : Config)
  | named (conn : Option ℕ) (bucket : String) (history : Option Int64)

namespace Request

def run (answers : Answers) : Request → Program Call Error KeyValue
  | .full conn config => create answers conn config
  | .named conn bucket history => createNamed answers conn bucket history

def conn : Request → Option ℕ
  | .full conn _ | .named conn _ _ => conn

/-- The configuration that the caller asks for. -/
def asked : Request → Config
  | .full _ config => config
  | .named _ bucket history => { bucket := bucket, history := history.getD 1 }

end Request

/-- The numbers of a configuration. -/
structure Limits where
  history : Int
  ttl : Int
  maxValueSize : Int
  maxBytes : Int
  replicas : Int
  deriving DecidableEq

def Config.limits (config : Config) : Limits where
  history := config.history.toInt
  ttl := config.ttlNs.toInt
  maxValueSize := config.maxValueSize.toInt
  maxBytes := config.maxBytes.toInt
  replicas := config.replicas.toInt

def NativeConfig.limits (cfg : NativeConfig) : Limits where
  history := cfg.history.toNat
  ttl := cfg.ttl.toInt
  maxValueSize := cfg.maxValueSize.toInt
  maxBytes := cfg.maxBytes.toInt
  replicas := cfg.replicas.toInt

/-- `js_CreateKeyValue` gets the numbers that the caller asks for, or `create` throws before it. -/
def CreatesAsAsked (answers : Answers) (request : Request) : Prop :=
  let (result, calls) := (request.run answers).outcome []
  (∀ js cfg, .jsCreateKeyValue js cfg ∈ calls → cfg.limits = request.asked.limits) ∧
    ((∀ js cfg, .jsCreateKeyValue js cfg ∉ calls) → ∃ e, result = .error e)

section Outcomes

variable (answers : Answers) (request : Request)

/-- The calls that come before the creation. -/
def Request.opening : List Call := [.natsConnectionJetStream request.conn, .kvConfigInit]

/-- The configuration that is passed on. -/
def Request.passed : NativeConfig := request.asked.native (answers.initial request.opening)

/-- How a request can end, and the calls that it has made then. -/
inductive RunCases : Except Error KeyValue × List Call → Prop where
  | noStream (e : Error) (h : answers.status [.natsConnectionJetStream request.conn] ≠ .ok) :
      RunCases (.error e, [.natsConnectionJetStream request.conn])
  | noConfig (e : Error) (h : answers.status request.opening ≠ .ok) :
      RunCases (.error e, request.opening)
  | created (hstream : answers.status [.natsConnectionJetStream request.conn] = .ok)
      (hinit : answers.status request.opening = .ok) (js : Option ℕ)
      (outcome : Except Error KeyValue × List Call)
      (hcalls : outcome.2 = request.opening ++ [.jsCreateKeyValue js (request.passed answers)]) :
      RunCases outcome

theorem runCases : RunCases answers request ((request.run answers).outcome []) := by
  have hrun : request.run answers = create answers request.conn request.asked := by
    cases request <;> rfl
  rw [hrun]
  unfold create
  by_cases hstream : answers.status [.natsConnectionJetStream request.conn] = .ok
  · rw [outcome_checked_ok _ _ _ _ _ _ hstream]
    by_cases hinit : answers.status request.opening = .ok
    · rw [outcome_checked_ok _ _ _ _ _ _ hinit]
      exact .created hstream hinit _ _ (calls_of_checked _ _ _ _ _ _)
    · rw [outcome_checked_of_ne _ _ _ _ _ _ hinit]
      exact .noConfig _ hinit
  · rw [outcome_checked_of_ne _ _ _ _ _ _ hstream]
    exact .noStream _ hstream

/-- The numbers survive the assignments exactly if the history fits in a byte. -/
theorem limits_native_iff (config : Config) (initial : NativeConfig) :
    (config.native initial).limits = config.limits ↔
      0 ≤ config.history.toInt ∧ config.history.toInt ≤ 255 := by
  rw [← toByte_eq_iff]
  simp [NativeConfig.limits, Config.limits, Config.native]

/-- The bucket gets the limits asked for exactly if the history fits in a byte, or nats.c refuses
a call before the creation. -/
theorem createsAsAsked_iff : CreatesAsAsked answers request ↔
    (0 ≤ request.asked.history.toInt ∧ request.asked.history.toInt ≤ 255) ∨
      answers.status [.natsConnectionJetStream request.conn] ≠ .ok ∨
        answers.status request.opening ≠ .ok := by
  have hrun := runCases answers request
  rw [CreatesAsAsked]
  generalize (request.run answers).outcome [] = outcome at hrun
  cases hrun with
  | noStream e h => exact iff_of_true ⟨by simp, fun _ => ⟨e, rfl⟩⟩ (.inr (.inl h))
  | noConfig e h =>
    exact iff_of_true ⟨by simp [Request.opening], fun _ => ⟨e, rfl⟩⟩ (.inr (.inr h))
  | created hstream hinit js outcome hcalls =>
    obtain ⟨result, calls⟩ := outcome
    obtain rfl : calls = _ := hcalls
    rw [← limits_native_iff _ (answers.initial request.opening)]
    simp only [hstream, hinit, ne_eq, not_true_eq_false, or_false]
    constructor
    · intro h
      exact h.1 js _ (List.mem_append_right _ (List.mem_singleton.mpr rfl))
    · intro hlimits
      refine ⟨fun js' cfg hmem => ?_, fun hnone => ?_⟩
      · have hcfg : js' = js ∧ cfg = request.passed answers := by
          simpa [Request.opening] using hmem
        rw [hcfg.2, Request.passed, hlimits]
      · exact absurd (List.mem_append_right _ (List.mem_singleton.mpr rfl)) (hnone js _)

end Outcomes

/-- An nats.c that accepts every call. -/
def accepting : Answers where
  texts := ⟨fun _ => none, fun _ => none⟩
  status _ := .ok
  ctx calls := some calls.length
  initial _ := ⟨none, none, 0, 0, 0, 0, .file, 0⟩
  kv calls := some calls.length

/-- A history of 257 revisions. -/
def longHistory : Request := .named (some 0) "bucket" (some 257)

/-- nats.c is asked for a history of one revision. -/
theorem longHistory_not_asked : ¬ CreatesAsAsked accepting longHistory := by
  intro h
  have hcalls : ((longHistory.run accepting).outcome []).2 =
      longHistory.opening ++ [.jsCreateKeyValue (some 1)
        ⟨some "bucket", none, 1, 0, 0, 0, .file, 1⟩] := by
    decide
  have hlimits := h.1 (some 1) ⟨some "bucket", none, 1, 0, 0, 0, .file, 1⟩
    (hcalls ▸ List.mem_append_right _ (List.mem_singleton.mpr rfl))
  exact absurd hlimits (by decide)

end NatsCpp.KvBucket
