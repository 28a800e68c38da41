import NatsCpp.KvConfig
import NatsCpp.ResultCopies
import NatsCpp.PayloadLength

/-!
# Configurations passed to nats.c by pointers

`create_stream`, `update_stream`, `upsert_consumer_group` and
`keys_with_filters` hand over pointers to the characters of the caller's
strings, and a local vector of such pointers for each list. nats.c reads
through them while its call lasts, and answers what it has read.
-/
namespace NatsCpp.NativeResults
open Effect CMemory
open Handles (Failure)
open KvBucket (StorageType)

/-! ## The caller's strings -/

/-- A `std::string`: its text, and where its characters are. -/
structure CxxString where
  text : String
  address : ℕ

/-- The text that can be read at `c_str()`. -/
def CxxString.cStr (s : CxxString) : String := cText s.text

/-- The characters of the string are there. -/
def CxxString.LivesIn (s : CxxString) (base : ℕ → Option Block) : Prop :=
  base s.address = some (.string s.cStr)

section Pointers

variable {α : Type}

/-- Runs with a vector of the `c_str()` of the strings, whose buffer is freed at the end; an empty
vector has no buffer. -/
def withPointers (strings : List CxxString) (body : Option ℕ → Effect (Memory Block) Failure α) :
    Effect (Memory Block) Failure α := do
  if strings = [] then
    body none
  else
    request .badAlloc
    let array ← act fun m =>
      let (a, m) := m.allocate (.pointers (strings.map fun s => some s.address))
      (some a, m)
    (body array).guarded (·.free array)

/-- `static_cast<int>(v.size())`. -/
def lengthOf (strings : List CxxString) : Int32 := toInt (UInt64.ofNat strings.length)

/-- nats.c reads a C string that may be missing. -/
def readString (p : Option ℕ) : Effect (Memory Block) Failure (Option String) :=
  if p = none then pure none else do
    let text ← load Block.string? p
    pure (some text)

/-- nats.c reads an array of C strings. -/
def readArray (array : Option ℕ) (len : Int32) :
    Effect (Memory Block) Failure (List (Option String)) :=
  gather len.toInt.toNat fun i => do
    let p ← load (Block.pointer? i) array
    readString p

end Pointers

/-! ## Streams -/

inductive RetentionPolicy where
  | limits
  | interest
  | workQueue
  deriving DecidableEq

inductive DiscardPolicy where
  | old
  | newMsgs
  deriving DecidableEq

/-- `js_stream_config`. -/
structure StreamConfig where
  name : CxxString
  subjects : List CxxString := []
  description : Option CxxString := none
  storage : StorageType := .file
  retention : RetentionPolicy := .limits
  discard : DiscardPolicy := .old
  maxConsumers : Int64 := -1
  maxMsgs : Int64 := -1
  maxBytes : Int64 := -1
  maxAgeNs : Int64 := 0
  maxMsgsPerSubject : Int64 := -1
  maxMsgSize : Int32 := -1
  replicas : Int64 := 1
  noAck : Bool := false
  duplicatesNs : Int64 := 0
  allowDirect : Bool := false
  denyDelete : Bool := false
  denyPurge : Bool := false

/-- The fields of `jsStreamConfig` that the wrapper sets. Its texts are pointers when it is passed
on, and texts when nats.c has read it; the same goes for the array of subjects. -/
structure JsStreamConfig (text array : Type) where
  name : Option text
  subjects : array
  subjectsLen : Int32
  description : Option text
  storage : StorageType
  retention : RetentionPolicy
  discard : DiscardPolicy
  maxConsumers : Int64
  maxMsgs : Int64
  maxBytes : Int64
  maxAge : Int64
  maxMsgsPerSubject : Int64
  maxMsgSize : Int32
  replicas : Int64
  noAck : Bool
  duplicates : Int64
  allowDirect : Bool
  denyDelete : Bool
  denyPurge : Bool

/-- The assignments of `build_stream_config`. -/
def StreamConfig.native {text array : Type} (config : StreamConfig) (cStr : CxxString → text)
    (subjects : array) : JsStreamConfig text array where
  name := some (cStr config.name)
  subjects := subjects
  subjectsLen := lengthOf config.subjects
  description := config.description.map cStr
  storage := config.storage
  retention := config.retention
  discard := config.discard
  maxConsumers := config.maxConsumers
  maxMsgs := config.maxMsgs
  maxBytes := config.maxBytes
  maxAge := config.maxAgeNs
  maxMsgsPerSubject := config.maxMsgsPerSubject
  maxMsgSize := config.maxMsgSize
  replicas := config.replicas
  noAck := config.noAck
  duplicates := config.duplicatesNs
  allowDirect := config.allowDirect
  denyDelete := config.denyDelete
  denyPurge := config.denyPurge

/-- nats.c reads the texts. -/
def JsStreamConfig.read (cfg : JsStreamConfig ℕ (Option ℕ)) :
    Effect (Memory Block) Failure (JsStreamConfig String (List (Option String))) := do
  let name ← readString cfg.name
  let description ← readString cfg.description
  let subjects ← readArray cfg.subjects cfg.subjectsLen
  pure { cfg with name := name, description := description, subjects := subjects }

/-- What nats.c is to be told. -/
def StreamConfig.told (config : StreamConfig) : JsStreamConfig String (List (Option String)) :=
  config.native CxxString.cStr (config.subjects.map fun s => some s.cStr)

namespace Jetstream

variable (texts : ErrorTexts Unit) (ctx : Bool)

/-- The part that `create_stream` and `update_stream` share; without an answer the stream has the
name of its configuration. -/
def upsertStream (context : String)
    (nats : JsStreamConfig String (List (Option String)) → Answer (Option JsStreamInfo))
    (config : StreamConfig) : Effect (Memory Block) Failure StreamInfo := do
  checkValid ctx
  require (config.name.text ≠ "") (.invalidArgument "stream name cannot be empty")
  withPointers config.subjects fun subjects => do
    let read ← (config.native CxxString.address subjects).read
    let answer := nats read
    withObject texts answer.status context (answer.result.map .streamInfo)
      (do
        request .badAlloc
        pure { name := config.name.text })
      (extractStreamInfo Block.streamInfo?)

def createStream
    (nats : JsStreamConfig String (List (Option String)) → Answer (Option JsStreamInfo))
    (config : StreamConfig) : Effect (Memory Block) Failure StreamInfo :=
  upsertStream texts ctx "js_AddStream" nats config

def updateStream
    (nats : JsStreamConfig String (List (Option String)) → Answer (Option JsStreamInfo))
    (config : StreamConfig) : Effect (Memory Block) Failure StreamInfo :=
  upsertStream texts ctx "js_UpdateStream" nats config

end Jetstream

/-! ## Consumers -/

inductive DeliverPolicy where
  | all
  | last
  | newMsgs
  | byStartSeq
  | byStartTime
  | lastPerSubject
  deriving DecidableEq

inductive AckPolicy where
  | explicit
  | none
  | all
  deriving DecidableEq

inductive ReplayPolicy where
  | instant
  | original
  deriving DecidableEq

inductive ConsumerType where
  | pull
  | push
  deriving DecidableEq

/-- `js_consumer_config`. -/
structure ConsumerConfig where
  stream : CxxString
  durableName : CxxString
  filterSubject : CxxString
  deliverSubject : CxxString
  deliverGroup : CxxString
  type : ConsumerType := .pull
  deliverPolicy : DeliverPolicy := .all
  ackPolicy : AckPolicy := .explicit
  replayPolicy : ReplayPolicy := .instant
  ackWaitNs : Int64 := 0
  maxDeliver : Int64 := -1
  maxAckPending : Int64 := -1
  maxWaiting : Int64 := -1
  inactiveThresholdNs : Int64 := 0
  replicas : Int64 := 0
  headersOnly : Bool := false
  optStartSeq : UInt64 := 0
  optStartTimeNs : Int64 := 0
  filterSubjects : List CxxString := []
  description : Option CxxString := none

/-- The fields of `jsConsumerConfig` that the wrapper may set; it starts from zeros and nulls. -/
structure JsConsumerConfig (text array : Type) where
  durable : Option text
  description : Option text
  deliverPolicy : DeliverPolicy
  optStartSeq : UInt64 := 0
  optStartTime : Int64 := 0
  ackPolicy : AckPolicy
  ackWait : Int64 := 0
  maxDeliver : Int64 := 0
  filterSubject : Option text := none
  filterSubjects : array
  filterSubjectsLen : Int32 := 0
  replayPolicy : ReplayPolicy
  maxWaiting : Int64 := 0
  maxAckPending : Int64 := 0
  headersOnly : Bool
  deliverSubject : Option text := none
  deliverGroup : Option text := none
  inactiveThreshold : Int64 := 0
  replicas : Int64 := 0

/-- The assignments of `upsert_consumer_group`. -/
def ConsumerConfig.native {text array : Type} (config : ConsumerConfig) (cStr : CxxString → text)
    (filterSubjects : array) : JsConsumerConfig text array where
  durable := some (cStr config.durableName)
  description := config.description.map cStr
  deliverPolicy := config.deliverPolicy
  ackPolicy := config.ackPolicy
  replayPolicy := config.replayPolicy
  headersOnly := config.headersOnly
  filterSubject := if config.filterSubject.text ≠ "" then some (cStr config.filterSubject) else none
  ackWait := if config.ackWaitNs > 0 then config.ackWaitNs else 0
  maxDeliver := if config.maxDeliver ≥ 0 then config.maxDeliver else 0
  maxAckPending := if config.maxAckPending ≥ 0 then config.maxAckPending else 0
  maxWaiting := if config.maxWaiting ≥ 0 then config.maxWaiting else 0
  inactiveThreshold := if config.inactiveThresholdNs > 0 then config.inactiveThresholdNs else 0
  replicas := if config.replicas > 0 then config.replicas else 0
  optStartSeq := if config.optStartSeq > 0 then config.optStartSeq else 0
  optStartTime := if config.optStartTimeNs > 0 then config.optStartTimeNs else 0
  deliverSubject := if config.type = .push then some (cStr config.deliverSubject) else none
  deliverGroup :=
    if config.type = .push then
      if config.deliverGroup.text = "" then none else some (cStr config.deliverGroup)
    else
      none
  filterSubjects := filterSubjects
  filterSubjectsLen := lengthOf config.filterSubjects

def JsConsumerConfig.read (cfg : JsConsumerConfig ℕ (Option ℕ)) :
    Effect (Memory Block) Failure (JsConsumerConfig String (List (Option String))) := do
  let durable ← readString cfg.durable
  let description ← readString cfg.description
  let filterSubject ← readString cfg.filterSubject
  let deliverSubject ← readString cfg.deliverSubject
  let deliverGroup ← readString cfg.deliverGroup
  let filterSubjects ← readArray cfg.filterSubjects cfg.filterSubjectsLen
  pure { cfg with
    durable := durable
    description := description
    filterSubject := filterSubject
    deliverSubject := deliverSubject
    deliverGroup := deliverGroup
    filterSubjects := filterSubjects }

def ConsumerConfig.told (config : ConsumerConfig) :
    JsConsumerConfig String (List (Option String)) :=
  config.native CxxString.cStr (config.filterSubjects.map fun s => some s.cStr)

/-- `js_UpdateConsumer` and `js_AddConsumer`: what they answer to the name of the stream and the
configuration. -/
abbrev UpsertConsumer :=
  Bool → String → JsConsumerConfig String (List (Option String)) → Answer (Option JsConsumerInfo)

namespace Jetstream

variable (texts : ErrorTexts Unit)

/-- A member of an answer in the place of a name. -/
def replaceName (view : Block → Option (Option String)) (raw : Option ℕ) (name : String) :
    Effect (Memory Block) Failure String := do
  let text ← load view raw
  request .badAlloc
  pure (text.getD name)

def replaceNames (config : ConsumerConfig) (raw : Option ℕ) :
    Effect (Memory Block) Failure ConsumerInfo := do
  let streamName ← replaceName (·.consumerInfo?.map (·.stream)) raw config.stream.text
  let durableName ← replaceName (·.consumerInfo?.map (·.name)) raw config.durableName.text
  pure ⟨streamName, durableName⟩

/-- What follows the native call: the names are copied from the configuration before the answer
is put under a guard. -/
def consumerAnswer (config : ConsumerConfig) (raw : Option ℕ) :
    Effect (Memory Block) Failure ConsumerInfo := do
  request .badAlloc
  request .badAlloc
  if raw = none then
    pure ⟨config.stream.text, config.durableName.text⟩
  else
    (replaceNames config raw).guarded (·.free raw)

/-- What follows the checks of the arguments. -/
def upsertBody (nats : UpsertConsumer) (config : ConsumerConfig) (update : Bool)
    (filterSubjects : Option ℕ) : Effect (Memory Block) Failure ConsumerInfo := do
  let stream ← load Block.string? (some config.stream.address)
  let read ← (config.native CxxString.address filterSubjects).read
  let answer := nats update stream read
  let raw ← receive answer.status (answer.result.map .consumerInfo)
  check texts answer.status (if update then "js_UpdateConsumer" else "js_AddConsumer")
  consumerAnswer config raw

def upsertConsumerGroup (nats : UpsertConsumer) (config : ConsumerConfig) (update : Bool) :
    Effect (Memory Block) Failure ConsumerInfo := do
  require (config.stream.text ≠ "") (.invalidArgument "consumer stream cannot be empty")
  require (config.durableName.text ≠ "")
    (.invalidArgument "consumer durable name cannot be empty")
  require (¬ (config.type = .push ∧ config.deliverSubject.text = ""))
    (.invalidArgument "push consumer requires deliver_subject")
  withPointers config.filterSubjects (upsertBody texts nats config update)

def createConsumerGroup (nats : UpsertConsumer) (config : ConsumerConfig) :
    Effect (Memory Block) Failure ConsumerInfo :=
  upsertConsumerGroup texts nats config false

def updateConsumerGroup (nats : UpsertConsumer) (config : ConsumerConfig) :
    Effect (Memory Block) Failure ConsumerInfo :=
  upsertConsumerGroup texts nats config true

end Jetstream

/-! ## Filters -/

/-- `options` has the status of `kvWatchOptions_Init` if there are options. -/
def KeyValue.keysWithFilters (texts : ErrorTexts Unit) (kv : Bool)
    (nats : List (Option String) → Answer (Option (List (Option String))))
    (filters : List CxxString) (options : Option Status) :
    Effect (Memory Block) Failure (List String) := do
  checkValid kv
  withPointers filters fun array => do
    check texts (options.getD .ok) "kvWatchOptions_Init"
    let read ← readArray array (lengthOf filters)
    fetchKeys texts "kvStore_KeysWithFilters" (nats read)

/-! ## What nats.c reads -/

/-- The array is the buffer of a vector with the pointers, or there is none. -/
def ArrayOf (ledger : List (ℕ × Block)) (strings : List CxxString) (array : Option ℕ) : Prop :=
  (strings = [] ∧ array = none) ∨
    ∃ a, array = some a ∧ (a, .pointers (strings.map fun s => some s.address)) ∈ ledger

/-- The strings of the caller are alive, and their number fits into an `int`. -/
def Passable (base : ℕ → Option Block) (strings : List CxxString) : Prop :=
  strings.length < 2 ^ 31 ∧ ∀ s ∈ strings, s.LivesIn base

def StreamConfig.LivesIn (config : StreamConfig) (base : ℕ → Option Block) : Prop :=
  config.name.LivesIn base ∧ (∀ s, config.description = some s → s.LivesIn base) ∧
    Passable base config.subjects

def ConsumerConfig.LivesIn (config : ConsumerConfig) (base : ℕ → Option Block) : Prop :=
  (∀ s ∈ [config.stream, config.durableName, config.filterSubject, config.deliverSubject,
    config.deliverGroup], s.LivesIn base) ∧
    (∀ s, config.description = some s → s.LivesIn base) ∧ Passable base config.filterSubjects

section Reading

variable {α : Type} {base : ℕ → Option Block} {rich : Prop} {ledger : List (ℕ × Block)}
  {strings : List CxxString}

theorem toNat_lengthOf (h : strings.length < 2 ^ 31) :
    (lengthOf strings).toInt.toNat = strings.length := by
  have hlt : strings.length < 2 ^ 64 := by omega
  have hnat := UInt64.toNat_ofNat_of_lt' hlt
  have hle : UInt64.ofNat strings.length ≤ intMax := by
    rw [UInt64.le_iff_toNat_le, hnat, intMax]
    simp only [UInt64.reduceToNat]
    omega
  rw [lengthOf, (toInt_eq_iff _).mpr hle, hnat, Int.toNat_natCast]

theorem reads_readString_none : Reads base ledger (readString none) none :=
  Reads.pure none

theorem reads_readString {s : CxxString} (h : s.LivesIn base) :
    Reads base ledger (readString (some s.address)) (some s.cStr) := by
  rw [readString, if_neg (Option.some_ne_none _)]
  refine (Reads.load (c := s.cStr) fun rich m hm => ?_).bind (Reads.pure _)
  rw [Option.bind_some, hm.content_of_base h]
  rfl

theorem reads_readOption {s : Option CxxString} (h : ∀ t, s = some t → t.LivesIn base) :
    Reads base ledger (readString (s.map CxxString.address)) (s.map CxxString.cStr) := by
  cases s with
  | none => exact reads_readString_none
  | some t => exact reads_readString (h t rfl)

theorem reads_readArray {array : Option ℕ} (harray : ArrayOf ledger strings array)
    (hstrings : Passable base strings) :
    Reads base ledger (readArray array (lengthOf strings))
      (strings.map fun s => some s.cStr) := by
  rw [readArray, toNat_lengthOf hstrings.1]
  rcases harray with ⟨rfl, -⟩ | ⟨a, rfl, hmem⟩
  · exact Reads.pure []
  · rw [← map_range_length strings (g := fun i => strings[i]?.map CxxString.cStr)
      fun i s hs => by simp [hs]]
    refine Reads.gather _ fun i hi => ?_
    have hget := List.getElem?_eq_getElem hi
    have hpointer : Block.pointer? i (.pointers (strings.map fun s => some s.address)) =
        some (some strings[i].address) := by
      rw [Block.pointer?, List.getElem?_map, hget, Option.map_some]
    refine (Reads.load (c := some strings[i].address) fun rich m hm => ?_).bind ?_
    · rw [Option.bind_some, hm.live a _ hmem]
      exact hpointer
    · rw [hget]
      exact reads_readString (hstrings.2 _ (List.getElem_mem hi))

/-- nats.c reads the configuration of a stream as the caller has it, each text up to a NUL. -/
theorem StreamConfig.reads_read {config : StreamConfig} {array : Option ℕ}
    (hlive : config.LivesIn base) (harray : ArrayOf ledger config.subjects array) :
    Reads base ledger (config.native CxxString.address array).read config.told := by
  refine Reads.bind (reads_readString hlive.1) ?_
  refine Reads.bind (reads_readOption hlive.2.1) ?_
  exact Reads.bind (reads_readArray harray hlive.2.2) (Reads.pure _)

/-- A string that is passed on under a condition. -/
theorem reads_readIf {s : CxxString} (condition : Prop) [Decidable condition]
    (h : s.LivesIn base) :
    Reads base ledger (readString (if condition then some s.address else none))
      (if condition then some s.cStr else none) := by
  by_cases hcondition : condition
  · rw [if_pos hcondition, if_pos hcondition]
    exact reads_readString h
  · rw [if_neg hcondition, if_neg hcondition]
    exact reads_readString_none

theorem ConsumerConfig.reads_read {config : ConsumerConfig} {array : Option ℕ}
    (hlive : config.LivesIn base) (harray : ArrayOf ledger config.filterSubjects array) :
    Reads base ledger (config.native CxxString.address array).read config.told := by
  obtain ⟨hstrings, hdescription, hfilters⟩ := hlive
  have hgroup : Reads base ledger (readString
      (if config.type = .push then
        if config.deliverGroup.text = "" then none else some config.deliverGroup.address
      else
        none))
      (if config.type = .push then
        if config.deliverGroup.text = "" then none else some config.deliverGroup.cStr
      else
        none) := by
    split
    · split
      · exact reads_readString_none
      · exact reads_readString (hstrings _ (by simp))
    · exact reads_readString_none
  refine Reads.bind (reads_readString (hstrings _ (by simp))) ?_
  refine Reads.bind (reads_readOption hdescription) ?_
  refine Reads.bind (reads_readIf (config.filterSubject.text ≠ "") (hstrings _ (by simp))) ?_
  refine Reads.bind (reads_readIf (config.type = .push) (hstrings _ (by simp))) ?_
  refine Reads.bind hgroup ?_
  exact Reads.bind (reads_readArray harray hfilters) (Reads.pure _)

/-- The buffer of the vector is freed, however the body ends. -/
theorem delivers_withPointers {body : Option ℕ → Effect (Memory Block) Failure α}
    {accepted : Prop} {value : α}
    (h : ∀ ledger array, ArrayOf ledger strings array →
      Delivers base rich ledger (body array) accepted value) :
    Delivers base rich ledger (withPointers strings body) accepted value := by
  rw [withPointers]
  by_cases hempty : strings = []
  · rw [if_pos hempty]
    exact h ledger none (.inl ⟨hempty, rfl⟩)
  · rw [if_neg hempty]
    refine Delivers.andThen (Copies.request _) ?_
    intro m hm
    let buffer := Block.pointers (strings.map fun s => some s.address)
    have hbody (a : ℕ) : Delivers base rich ((a, buffer) :: ledger) (body (some a)) accepted value :=
      h _ _ (.inr ⟨a, rfl, List.mem_cons_self⟩)
    have howned : Owned base rich ((m.blocks.length, buffer) :: ledger) (m.allocate buffer).2 :=
      hm.allocate buffer
    exact (hbody m.blocks.length).guarded (fun n hn => hn.free) _ howned

end Reading

/-- The calls with a configuration that leave nothing behind. -/
inductive Configured : Type → Type where
  | createStream (ctx : Bool)
    (nats : JsStreamConfig String (List (Option String)) → Answer (Option JsStreamInfo))
    (config : StreamConfig) : Configured StreamInfo
  | updateStream (ctx : Bool)
    (nats : JsStreamConfig String (List (Option String)) → Answer (Option JsStreamInfo))
    (config : StreamConfig) : Configured StreamInfo
  | keysWithFilters (kv : Bool)
    (nats : List (Option String) → Answer (Option (List (Option String))))
    (filters : List CxxString) (options : Option Status) : Configured (List String)

namespace Configured

variable {α : Type}

def run (texts : ErrorTexts Unit) : Configured α → Effect (Memory Block) Failure α
  | .createStream ctx nats config => Jetstream.createStream texts ctx nats config
  | .updateStream ctx nats config => Jetstream.updateStream texts ctx nats config
  | .keysWithFilters kv nats filters options =>
    KeyValue.keysWithFilters texts kv nats filters options

/-- The strings of the configuration are alive, and its lists fit into an `int`. -/
def LivesIn (base : ℕ → Option Block) : Configured α → Prop
  | .createStream _ _ config => config.LivesIn base
  | .updateStream _ _ config => config.LivesIn base
  | .keysWithFilters _ _ filters _ => Passable base filters

/-- nats.c accepts the texts of the configuration. -/
def Accepted : Configured α → Prop
  | .createStream ctx nats config =>
    ctx = true ∧ config.name.text ≠ "" ∧ (nats config.told).status = .ok
  | .updateStream ctx nats config =>
    ctx = true ∧ config.name.text ≠ "" ∧ (nats config.told).status = .ok
  | .keysWithFilters kv nats filters options =>
    kv = true ∧ options.getD .ok = .ok ∧ (nats (filters.map fun s => some s.cStr)).status = .ok

/-- The copy of what nats.c answers to the texts of the configuration. -/
def value : Configured α → α
  | .createStream _ nats config =>
    ((nats config.told).result.map (·.copied)).getD { name := config.name.text }
  | .updateStream _ nats config =>
    ((nats config.told).result.map (·.copied)).getD { name := config.name.text }
  | .keysWithFilters _ nats filters _ =>
    ((nats (filters.map fun s => some s.cStr)).result.getD []).map (·.getD "")

section Run

variable (texts : ErrorTexts Unit) {base : ℕ → Option Block} {rich : Prop}
  {ledger : List (ℕ × Block)}

theorem delivers_upsertStream {ctx : Bool} (context : String)
    {nats : JsStreamConfig String (List (Option String)) → Answer (Option JsStreamInfo)}
    {config : StreamConfig} (hlive : config.LivesIn base)
    (hrich : rich → ctx = true ∧ config.name.text ≠ "" ∧ (nats config.told).status = .ok) :
    Delivers base rich ledger (Jetstream.upsertStream texts ctx context nats config)
      (ctx = true ∧ config.name.text ≠ "" ∧ (nats config.told).status = .ok)
      (((nats config.told).result.map (·.copied)).getD { name := config.name.text }) := by
  refine Accessor.delivers_named (fun h => (hrich h).1) (fun h => (hrich h).2.1) ?_
  refine delivers_withPointers fun ledger array harray => ?_
  refine Delivers.andThen (config.reads_read hlive harray).copies ?_
  refine delivers_copied texts context (fun h => (hrich h).2.2) ?_ fun a info =>
    copies_extractStreamInfo List.mem_cons_self rfl
  exact Copies.bind (Copies.request _) (Copies.pure _)

theorem delivers_run (call : Configured α) (hlive : call.LivesIn base)
    (hrich : rich → call.Accepted) :
    Delivers base rich ledger (call.run texts) call.Accepted call.value := by
  cases call with
  | createStream ctx nats config | updateStream ctx nats config =>
    exact delivers_upsertStream texts _ hlive hrich
  | keysWithFilters kv nats filters options =>
    refine Delivers.require (fun h => (hrich h).1) ?_
    refine delivers_withPointers fun ledger array harray => ?_
    refine Delivers.check texts _ (fun h => (hrich h).2.1) ?_
    refine Delivers.andThen (reads_readArray harray hlive).copies ?_
    exact delivers_fetchKeys texts _ fun h => (hrich h).2.2

end Run

end Configured

/-- nats.c reads a stream configuration and a list of filters through live pointers, text by text
as the caller has them up to a NUL, and nothing of what the call allocates is left behind. -/
theorem configured_delivers (texts : ErrorTexts Unit) {α : Type} (call : Configured α)
    (m : Memory Block) (hfault : m.fault = false) (hlive : call.LivesIn m.content) :
    let r := (call.run texts).outcome m
    r.2.fault = false ∧ r.2.content = m.content ∧
      (∀ v, r.1 = .ok v → call.Accepted ∧ v = call.value) ∧
      (call.Accepted → m.Generous → r.1 = .ok call.value) :=
  (Configured.delivers_run texts call hlive And.left).outcome hfault

/-- The strings of two configurations, one after the other. -/
def ordersMemory : Memory Block where
  blocks := [some (.string "ORDERS"), some (.string "worker"), some (.string ""),
    some (.string "orders.new")]
  supply := [true, true, false]

def ordersStream : StreamConfig where
  name := ⟨"ORDERS", 0⟩
  subjects := [⟨"orders.new", 3⟩]

/-- A stream is created and described by its first subject; the last request for memory is
refused. -/
theorem configured_delivers_orders :
    let nats := fun cfg : JsStreamConfig String (List (Option String)) =>
      (⟨.ok, some ⟨some (cfg.name, cfg.subjects.head?.join), 0, 0, 0, 0, 0⟩⟩ :
        Answer (Option JsStreamInfo))
    ((Configured.createStream true nats ordersStream).run ⟨fun _ => none, fun _ => none⟩).outcome
      ordersMemory |>.2.content = ordersMemory.content := by
  intro nats
  have hlive : ordersStream.LivesIn ordersMemory.content := by
    refine ⟨rfl, by simp [ordersStream], by decide, ?_⟩
    simp [ordersStream, CxxString.LivesIn, CxxString.cStr, cText, ordersMemory, Memory.content]
  exact (configured_delivers ⟨fun _ => none, fun _ => none⟩ (.createStream true nats ordersStream)
    ordersMemory rfl hlive).2.1

/-! ## Creating and updating a consumer -/

namespace ConsumerConfig

variable (config : ConsumerConfig)

/-- The names are there, and a push consumer has a subject to deliver to. -/
def Arguments : Prop :=
  config.stream.text ≠ "" ∧ config.durableName.text ≠ "" ∧
    ¬ (config.type = .push ∧ config.deliverSubject.text = "")

/-- The arguments are right, and nats.c returns `NATS_OK`. -/
def Accepted (answer : Answer (Option JsConsumerInfo)) : Prop :=
  config.Arguments ∧ answer.status = .ok

/-- The names that nats.c answers, or else those of the configuration. -/
def group (answer : Answer (Option JsConsumerInfo)) : ConsumerInfo where
  streamName := (answer.result.bind (·.stream)).getD config.stream.text
  durableName := (answer.result.bind (·.name)).getD config.durableName.text

/-- The requests for memory before the native call. -/
def requestsBefore : ℕ := if config.filterSubjects = [] then 0 else 1

/-- nats.c has made an info, and memory is refused to one of the two copies made before the info
is put under a guard. -/
def Leaks (answer : Answer (Option JsConsumerInfo)) (m : Memory Block) : Prop :=
  config.Accepted answer ∧ answer.result ≠ none ∧ (∀ i < config.requestsBefore, m.Grants i) ∧
    ¬ (m.Grants config.requestsBefore ∧ m.Grants (config.requestsBefore + 1))

end ConsumerConfig

namespace Jetstream

variable (texts : ErrorTexts Unit) {base : ℕ → Option Block} {rich : Prop}
  {ledger : List (ℕ × Block)} {config : ConsumerConfig}

theorem copies_replaceNames {a : ℕ} {info : JsConsumerInfo} :
    Copies base rich ((a, .consumerInfo info) :: ledger) (replaceNames config (some a))
      (config.group ⟨.ok, some info⟩) := by
  refine Copies.bind (Copies.bind (Copies.load_owned List.mem_cons_self rfl)
    (Copies.bind (Copies.request _) (Copies.pure _))) ?_
  exact Copies.bind (Copies.bind (Copies.load_owned List.mem_cons_self rfl)
    (Copies.bind (Copies.request _) (Copies.pure _))) (Copies.pure _)

/-- What holds at the end of the part that starts with the native call, where so many requests for
memory have been made before it. -/
def Ends (base : ℕ → Option Block) (rich : Prop) (ledger : List (ℕ × Block))
    (config : ConsumerConfig) (answer : Answer (Option JsConsumerInfo)) (leaks : Prop)
    (r : Except Failure ConsumerInfo × Memory Block) : Prop :=
  (¬ leaks → Owned base rich ledger r.2) ∧
  (leaks → r.1 = .error .badAlloc ∧ ∃ a info, answer.result = some info ∧
    Owned base rich ((a, .consumerInfo info) :: ledger) r.2) ∧
  (∀ v, r.1 = .ok v → answer.status = .ok ∧ v = config.group answer) ∧
  (rich → r.1 = .ok (config.group answer))

/-- The end of a computation that leaks nothing. -/
theorem ends_of_contract {answer : Answer (Option JsConsumerInfo)} {leaks : Prop}
    {P : Memory Block → Prop} {p : Effect (Memory Block) Failure ConsumerInfo} {m : Memory Block}
    (h : Contract P p
      (fun v t => (answer.status = .ok ∧ v = config.group answer) ∧ Owned base rich ledger t)
      fun t => Owned base rich ledger t ∧ ¬ rich)
    (hm : P m) (hleaks : ¬ leaks) : Ends base rich ledger config answer leaks (p.outcome m) := by
  have hend := h m hm
  generalize p.outcome m = r at hend
  obtain ⟨v, t⟩ := r
  cases v with
  | ok v =>
    obtain ⟨⟨hok, rfl⟩, ht⟩ := hend
    refine ⟨fun _ => ht, fun h => absurd h hleaks, ?_, fun _ => rfl⟩
    intro v hv
    exact ⟨hok, (Except.ok.inj hv).symm⟩
  | error e =>
    refine ⟨fun _ => hend.1, fun h => absurd h hleaks, fun v hv => absurd hv (by simp), ?_⟩
    exact fun hrich => absurd hrich hend.2

/-- The end of a computation to which memory has been refused while it had the info. -/
theorem ends_of_refused {answer : Answer (Option JsConsumerInfo)} {leaks : Prop} {a : ℕ}
    {info : JsConsumerInfo} {t : Memory Block} (hinfo : answer.result = some info)
    (ht : Owned base rich ((a, .consumerInfo info) :: ledger) t) (hleaks : leaks)
    (hrefused : ¬ rich) : Ends base rich ledger config answer leaks (.error .badAlloc, t) := by
  refine ⟨fun h => absurd hleaks h, fun _ => ⟨rfl, a, info, hinfo, ht⟩, ?_, fun h => ?_⟩
  · exact fun v hv => absurd hv (by simp)
  · exact absurd h hrefused

theorem Ends.of_iff {answer : Answer (Option JsConsumerInfo)} {leaks leaks' : Prop}
    {r : Except Failure ConsumerInfo × Memory Block}
    (h : Ends base rich ledger config answer leaks r) (hiff : leaks' ↔ leaks) :
    Ends base rich ledger config answer leaks' r :=
  ⟨fun hleaks => h.1 fun h => hleaks (hiff.mpr h), fun hleaks => h.2.1 (hiff.mp hleaks), h.2.2⟩

/-- A buffer is freed when the computation is left. -/
theorem Ends.guarded {answer : Answer (Option JsConsumerInfo)} {leaks : Prop} {a : ℕ} {b : Block}
    {p : Effect (Memory Block) Failure ConsumerInfo} {m : Memory Block}
    (h : Ends base rich ((a, b) :: ledger) config answer leaks (p.outcome m)) :
    Ends base rich ledger config answer leaks ((p.guarded (·.free (some a))).outcome m) := by
  obtain ⟨hkept, hleaked, hvalue⟩ := h
  rw [outcome_guarded]
  refine ⟨fun hleaks => (hkept hleaks).free, fun hleaks => ?_, hvalue⟩
  obtain ⟨herror, c, info, hinfo, ht⟩ := hleaked hleaks
  exact ⟨herror, c, info, hinfo, (ht.perm (List.Perm.swap _ _ _)).free⟩

theorem ends_consumerAnswer {a : ℕ} {info : JsConsumerInfo} {m : Memory Block}
    (hm : Owned base rich ((a, .consumerInfo info) :: ledger) m) :
    Ends base rich ledger config ⟨.ok, some info⟩ (¬ (m.Grants 0 ∧ m.Grants 1))
      ((consumerAnswer config (some a)).outcome m) := by
  rw [consumerAnswer]
  by_cases hfirst : m.Grants 0
  · rw [outcome_bind_of_ok _ _ _ (outcome_request hfirst _)]
    by_cases hsecond : m.Grants 1
    · rw [outcome_bind_of_ok _ _ _ (outcome_request ((grants_answered m 0).mpr hsecond) _),
        if_neg (Option.some_ne_none a)]
      exact ends_of_contract
        ((Delivers.of_copies copies_replaceNames rfl).guarded fun t ht => ht.free)
        hm.answered.answered fun h => h ⟨hfirst, hsecond⟩
    · have hrefused : ¬ m.answered.Grants 0 := fun h => hsecond ((grants_answered m 0).mp h)
      rw [outcome_bind_of_error _ _ _ (outcome_request_refused hrefused _)]
      exact ends_of_refused rfl hm.answered.answered (fun h => hsecond h.2)
        fun h => hsecond (hm.grants h 1)
  · rw [outcome_bind_of_error _ _ _ (outcome_request_refused hfirst _)]
    exact ends_of_refused rfl hm.answered (fun h => hfirst h.1) fun h => hfirst (hm.grants h 0)

/-- From the native call on. -/
theorem ends_native (context : String) {answer : Answer (Option JsConsumerInfo)}
    {m : Memory Block} (hm : Owned base rich ledger m) (hrich : rich → answer.status = .ok) :
    Ends base rich ledger config answer
      (answer.status = .ok ∧ answer.result ≠ none ∧ ¬ (m.Grants 0 ∧ m.Grants 1))
      (Effect.outcome (do
        let raw ← receive answer.status (answer.result.map .consumerInfo)
        check texts answer.status context
        consumerAnswer config raw) m) := by
  obtain ⟨status, result⟩ := answer
  by_cases hok : status = .ok
  · subst hok
    cases result with
    | none =>
      have hcopies : Copies base rich ledger (consumerAnswer config none)
          (config.group ⟨.ok, none⟩) :=
        Copies.bind (Copies.request _) (Copies.bind (Copies.request _) (Copies.pure _))
      exact ends_of_contract (Delivers.of_copies hcopies rfl) hm fun h => h.2.1 rfl
    | some info =>
      have hends : Ends base rich ledger config ⟨.ok, some info⟩ _ _ :=
        ends_consumerAnswer (hm.allocate (.consumerInfo info))
      exact hends.of_iff ⟨fun h => h.2.2, fun h => ⟨rfl, by simp, h⟩⟩
  · rw [outcome_bind_of_ok _ _ _ (outcome_receive_of_ne hok _ m),
      outcome_bind_of_error _ _ _ (outcome_check_of_ne texts context hok m)]
    refine ⟨fun _ => hm, fun h => absurd h.1 hok, fun v hv => absurd hv (by simp), ?_⟩
    exact fun h => absurd (hrich h) hok

theorem ends_upsertBody {nats : UpsertConsumer} {update : Bool} {array : Option ℕ}
    {m : Memory Block} {answer : Answer (Option JsConsumerInfo)}
    (hanswer : nats update config.stream.cStr config.told = answer)
    (hlive : config.LivesIn base) (harray : ArrayOf ledger config.filterSubjects array)
    (hm : Owned base rich ledger m) (hrich : rich → answer.status = .ok) :
    Ends base rich ledger config answer
      (answer.status = .ok ∧ answer.result ≠ none ∧ ¬ (m.Grants 0 ∧ m.Grants 1))
      ((upsertBody texts nats config update array).outcome m) := by
  subst hanswer
  have hstream : Reads base ledger
      (load Block.string? (some config.stream.address) : Effect (Memory Block) Failure String)
      config.stream.cStr := by
    refine Reads.load fun rich m hm => ?_
    rw [Option.bind_some, hm.content_of_base (hlive.1 _ (by simp))]
    rfl
  rw [upsertBody, outcome_bind_of_ok _ _ _ (hstream rich m hm),
    outcome_bind_of_ok _ _ _ (config.reads_read hlive harray rich m hm)]
  exact ends_native texts _ hm hrich

/-- The vector of filters is freed in any case. -/
theorem ends_withPointers {nats : UpsertConsumer} {update : Bool} {m : Memory Block}
    {answer : Answer (Option JsConsumerInfo)}
    (hanswer : nats update config.stream.cStr config.told = answer)
    (hlive : config.LivesIn base) (hm : Owned base rich ledger m)
    (hrich : rich → answer.status = .ok) :
    Ends base rich ledger config answer
      (answer.status = .ok ∧ answer.result ≠ none ∧ (∀ i < config.requestsBefore, m.Grants i) ∧
        ¬ (m.Grants config.requestsBefore ∧ m.Grants (config.requestsBefore + 1)))
      ((withPointers config.filterSubjects (upsertBody texts nats config update)).outcome m) := by
  rw [withPointers, ConsumerConfig.requestsBefore]
  by_cases hempty : config.filterSubjects = []
  · rw [if_pos hempty, if_pos hempty]
    have hends := ends_upsertBody texts hanswer hlive (.inl ⟨hempty, rfl⟩) hm hrich
    exact hends.of_iff (by simp)
  · rw [if_neg hempty, if_neg hempty]
    by_cases hgrants : m.Grants 0
    · rw [outcome_bind_of_ok _ _ _ (outcome_request hgrants _)]
      let buffer := Block.pointers (config.filterSubjects.map fun s => some s.address)
      have hbuffer : Owned base rich ((m.answered.blocks.length, buffer) :: ledger)
          (m.answered.allocate buffer).2 := hm.answered.allocate buffer
      have hends := ends_upsertBody texts hanswer hlive (.inr ⟨_, rfl, List.mem_cons_self⟩) hbuffer hrich
      have hshift (i : ℕ) : (m.answered.allocate buffer).2.Grants i ↔ m.Grants (i + 1) :=
        grants_answered m i
      have hguarded := hends.guarded
      rw [hshift, hshift] at hguarded
      rw [outcome_bind, outcome_act]
      exact hguarded.of_iff (by simp [hgrants])
    · rw [outcome_bind_of_error _ _ _ (outcome_request_refused hgrants _)]
      refine ⟨fun _ => hm.answered, fun h => absurd (h.2.2.1 0 (by simp)) hgrants,
        fun v hv => absurd hv (by simp), fun h => absurd (hm.grants h 0) hgrants⟩

theorem outcome_require {condition : Bool} (h : condition = true) (e : Error) (m : Memory Block) :
    (require condition e).outcome m = (.ok (), m) := by
  subst h
  rfl

theorem outcome_require_refused {condition : Bool} (h : condition = false) (e : Error)
    (m : Memory Block) : (require condition e).outcome m = (.error (.error e), m) := by
  subst h
  rfl

theorem outcome_upsertConsumerGroup (nats : UpsertConsumer) (update : Bool) (m : Memory Block)
    (hargs : config.Arguments) : (upsertConsumerGroup texts nats config update).outcome m =
      (withPointers config.filterSubjects (upsertBody texts nats config update)).outcome m := by
  rw [upsertConsumerGroup,
    outcome_bind_of_ok _ _ _ (outcome_require (decide_eq_true hargs.1) _ m),
    outcome_bind_of_ok _ _ _ (outcome_require (decide_eq_true hargs.2.1) _ m),
    outcome_bind_of_ok _ _ _ (outcome_require (decide_eq_true hargs.2.2) _ m)]

/-- The arguments are checked before anything else is done. -/
theorem outcome_upsertConsumerGroup_refused (nats : UpsertConsumer) (update : Bool)
    (m : Memory Block) (hargs : ¬ config.Arguments) :
    ∃ e, (upsertConsumerGroup texts nats config update).outcome m = (.error (.error e), m) := by
  rw [upsertConsumerGroup]
  by_cases hstream : config.stream.text ≠ ""
  · rw [outcome_bind_of_ok _ _ _ (outcome_require (decide_eq_true hstream) _ m)]
    by_cases hdurable : config.durableName.text ≠ ""
    · rw [outcome_bind_of_ok _ _ _ (outcome_require (decide_eq_true hdurable) _ m)]
      have hpush : decide (¬ (config.type = .push ∧ config.deliverSubject.text = "")) = false :=
        decide_eq_false fun h => hargs ⟨hstream, hdurable, h⟩
      rw [outcome_bind_of_error _ _ _ (outcome_require_refused hpush _ m)]
      exact ⟨_, rfl⟩
    · rw [outcome_bind_of_error _ _ _
        (outcome_require_refused (decide_eq_false hdurable) _ m)]
      exact ⟨_, rfl⟩
  · rw [outcome_bind_of_error _ _ _ (outcome_require_refused (decide_eq_false hstream) _ m)]
    exact ⟨_, rfl⟩

end Jetstream

/-- A consumer is created or updated with what the configuration says. Nothing is left behind,
unless memory is refused for one of the two copies that are made before the answer of nats.c is put
under a guard: then exactly that answer is. -/
theorem upsertConsumerGroup_leaks (texts : ErrorTexts Unit) (nats : UpsertConsumer)
    (config : ConsumerConfig) (update : Bool) (m : Memory Block) (hfault : m.fault = false)
    (hlive : config.LivesIn m.content) :
    let r := (if update then Jetstream.updateConsumerGroup texts nats config
      else Jetstream.createConsumerGroup texts nats config).outcome m
    let answer := nats update config.stream.cStr config.told
    r.2.fault = false ∧
      (¬ config.Leaks answer m → r.2.content = m.content) ∧
      (config.Leaks answer m → r.1 = .error .badAlloc ∧ ∃ a info, answer.result = some info ∧
        m.content a = none ∧
        r.2.content = Function.update m.content a (some (.consumerInfo info))) ∧
      (∀ v, r.1 = .ok v → config.Accepted answer ∧ v = config.group answer) ∧
      (config.Accepted answer → m.Generous → r.1 = .ok (config.group answer)) := by
  intro r answer
  have hr : r = (Jetstream.upsertConsumerGroup texts nats config update).outcome m := by
    cases update <;> rfl
  by_cases hargs : config.Arguments
  · have howned : Owned m.content (answer.status = .ok ∧ m.Generous) [] m :=
      Owned.of_noFault hfault And.right
    have hends := Jetstream.ends_withPointers texts rfl hlive howned And.left
    rw [← Jetstream.outcome_upsertConsumerGroup texts nats update m hargs, ← hr] at hends
    obtain ⟨hkept, hleaked, hvalue, hreturns⟩ := hends
    have hiff : config.Leaks answer m ↔ _ := and_assoc.trans (and_iff_right hargs)
    rw [← hiff] at hkept hleaked
    have hfault : r.2.fault = false := by
      by_cases hleaks : config.Leaks answer m
      · obtain ⟨-, a, info, -, howned⟩ := hleaked hleaks
        exact howned.noFault
      · exact (hkept hleaks).noFault
    refine ⟨hfault, fun hleaks => (hkept hleaks).content_eq, fun hleaks => ?_, fun v hv => ?_, ?_⟩
    · obtain ⟨herror, a, info, hinfo, howned⟩ := hleaked hleaks
      exact ⟨herror, a, info, hinfo, howned.content_singleton⟩
    · have hv := hvalue v hv
      exact ⟨⟨hargs, hv.1⟩, hv.2⟩
    · exact fun haccepted hgenerous => hreturns ⟨haccepted.2, hgenerous⟩
  · obtain ⟨e, he⟩ := Jetstream.outcome_upsertConsumerGroup_refused texts nats update m hargs
    rw [hr.trans he]
    refine ⟨hfault, fun _ => rfl, fun h => absurd h.1.1 hargs, fun v hv => absurd hv (by simp), ?_⟩
    exact fun h => absurd h.1 hargs

def ordersConsumer : ConsumerConfig where
  stream := ⟨"ORDERS", 0⟩
  durableName := ⟨"worker", 1⟩
  filterSubject := ⟨"", 2⟩
  deliverSubject := ⟨"", 2⟩
  deliverGroup := ⟨"", 2⟩
  filterSubjects := [⟨"orders.new", 3⟩]

theorem ordersConsumer_livesIn : ordersConsumer.LivesIn ordersMemory.content := by
  refine ⟨?_, by simp [ordersConsumer], by decide, ?_⟩
  · simp [ordersConsumer, CxxString.LivesIn, CxxString.cStr, cText, ordersMemory, Memory.content]
  · simp [ordersConsumer, CxxString.LivesIn, CxxString.cStr, cText, ordersMemory, Memory.content]

/-- The second copy of a name is refused its memory, after nats.c has made an info at address 5. -/
theorem upsertConsumerGroup_leaks_orders :
    let nats : UpsertConsumer := fun _ stream _ => ⟨.ok, some ⟨some stream, some "worker"⟩⟩
    ∃ a, ((Jetstream.createConsumerGroup ⟨fun _ => none, fun _ => none⟩ nats
      ordersConsumer).outcome ordersMemory).2.content =
        Function.update ordersMemory.content a (some (.consumerInfo ⟨"ORDERS", "worker"⟩)) := by
  intro nats
  have hspec := upsertConsumerGroup_leaks ⟨fun _ => none, fun _ => none⟩ nats ordersConsumer false
    ordersMemory rfl ordersConsumer_livesIn
  have hleaks : ordersConsumer.Leaks ⟨.ok, some ⟨some "ORDERS", some "worker"⟩⟩ ordersMemory := by
    refine ⟨⟨⟨by decide, by decide, by decide⟩, rfl⟩, by simp, ?_, ?_⟩
    · intro i hi
      have hzero : i = 0 := by
        have hbefore : ordersConsumer.requestsBefore = 1 := rfl
        omega
      subst hzero
      rfl
    · exact fun h => absurd h.2 (by decide)
  obtain ⟨-, a, info, hinfo, -, hcontent⟩ := hspec.2.2.1 hleaks
  obtain rfl := Option.some.inj hinfo
  exact ⟨a, hcontent⟩

end NatsCpp.NativeResults
