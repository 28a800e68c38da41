import NatsCpp.Errors
import Mathlib.Algebra.Group.Nat.Defs
import Mathlib.Tactic.SplitIfs

/-!
# Payload lengths at the boundary to nats.c

A payload has a 64-bit length, and nats.c takes lengths as 32-bit signed
integers. Ten operations narrow the length with a cast; five of them check it
first. A call is recorded with the pointer and the integer that nats.c gets, of
which it takes that many bytes.
-/
namespace NatsCpp

/-- A `std::string_view` of binary data. -/
structure Payload where
  bytes : List UInt8
  size_lt : bytes.length < 2 ^ 64

def Payload.size (p : Payload) : UInt64 := UInt64.ofNat p.bytes.length

/-- `std::numeric_limits<int>::max()`. -/
def intMax : UInt64 := 2147483647

/-- `static_cast<int>` of a `std::size_t`. -/
def toInt (n : UInt64) : Int32 := n.toUInt32.toInt32

theorem Payload.toNat_size (p : Payload) : p.size.toNat = p.bytes.length :=
  UInt64.toNat_ofNat_of_lt' p.size_lt

theorem toInt_eq_bmod (n : UInt64) : (toInt n).toInt = (n.toNat : Int).bmod (2 ^ 32) := by
  rw [toInt, ← Int32.toInt_toBitVec, UInt32.toBitVec_toInt32, UInt64.toBitVec_toUInt32,
    BitVec.toInt_setWidth, UInt64.toNat_toBitVec]

/-- The cast keeps exactly the lengths up to `INT_MAX`. -/
theorem toInt_eq_iff (n : UInt64) : (toInt n).toInt = n.toNat ↔ n ≤ intMax := by
  have hlt := n.toNat_lt
  rw [toInt_eq_bmod, UInt64.le_iff_toNat_le, Int.bmod_def, intMax]
  simp only [UInt64.reduceToNat]
  split <;> omega

namespace Messaging

/-- `jsPubOptions`; a text is null unless it was set. -/
structure JsPubOptions where
  msgId : Option String
  expectStream : Option String
  expectLastMsgId : Option String
  expectLastSeq : UInt64
  expectLastSubjectSeq : UInt64
  expectNoMessage : Bool
  maxWait : Int64
  msgTTL : Int64

/-- The native functions that get a length, with their other arguments. -/
inductive Function where
  | natsConnectionPublish (nc : Option ℕ) (subj : String)
  | natsConnectionPublishRequest (nc : Option ℕ) (subj reply : String)
  | natsConnectionRequest (nc : Option ℕ) (subj : String) (timeout : Int64)
  | natsConnectionSign (nc : Option ℕ)
  | natsMsgCreate (subj : String) (reply : Option String)
  | jsPublish (js : ℕ) (subj : String) (opts : Option JsPubOptions)
  | kvStorePut (kv : ℕ) (key : String)
  | kvStoreCreate (kv : ℕ) (key : String)
  | kvStoreUpdate (kv : ℕ) (key : String) (last : UInt64)

structure Call where
  function : Function
  data : List UInt8
  dataLen : Int32

/-- The bytes that nats.c takes. -/
def Call.taken (c : Call) : List UInt8 := c.data.take c.dataLen.toInt.toNat

/-- A `jsPubAck`; its texts may be null. -/
structure JsPubAck where
  stream : Option String
  sequence : UInt64
  domain : Option String
  duplicate : Bool

/-- What nats.c answers to the last of the calls made. -/
structure Answers where
  texts : ErrorTexts Call
  status : List Call → Status
  msg : List Call → Option ℕ
  ack : List Call → Option JsPubAck
  rev : List Call → UInt64
  sig : List Call → Vector UInt8 64

structure PubAck where
  stream : String
  sequence : UInt64
  domain : String
  duplicate : Bool

/-- `js_publish_options`. -/
structure PublishOptions where
  msgId : String
  expectedStream : String
  expectedLastMsgId : String
  expectedLastSeq : UInt64
  expectedLastSubjectSeq : UInt64
  expectNoMessage : Bool
  maxWaitMs : Int64
  msgTtlMs : Int64

def nonempty (s : String) : Option String := if s = "" then none else some s

/-- The native options; null if every option has its default. -/
def PublishOptions.native (o : PublishOptions) : Option JsPubOptions :=
  let native : JsPubOptions :=
    { msgId := nonempty o.msgId
      expectStream := nonempty o.expectedStream
      expectLastMsgId := nonempty o.expectedLastMsgId
      expectLastSeq := if o.expectedLastSeq > 0 then o.expectedLastSeq else 0
      expectLastSubjectSeq := if o.expectedLastSubjectSeq > 0 then o.expectedLastSubjectSeq else 0
      expectNoMessage := o.expectNoMessage
      maxWait := if o.maxWaitMs > 0 then o.maxWaitMs else 0
      msgTTL := if o.msgTtlMs > 0 then o.msgTtlMs else 0 }
  let hasOpts := o.msgId ≠ "" ∨ o.expectedStream ≠ "" ∨ o.expectedLastMsgId ≠ "" ∨
    o.expectedLastSeq > 0 ∨ o.expectedLastSubjectSeq > 0 ∨ o.expectNoMessage = true ∨
    o.maxWaitMs > 0 ∨ o.msgTtlMs > 0
  if hasOpts then some native else none

/-- `extract_pub_ack`. -/
def extractPubAck : Option JsPubAck → PubAck
  | some raw => ⟨raw.stream.getD "", raw.sequence, raw.domain.getD "", raw.duplicate⟩
  | none => ⟨"", 0, "", false⟩

section Operations

variable (answers : Answers)

/-- Calls nats.c with a payload, throws on an error, and reads the result. -/
def send {α : Type} (function : Function) (context : String) (payload : Payload)
    (result : List Call → α) : Program Call Error α := do
  let calls ← Program.call ⟨function, payload.bytes, toInt payload.size⟩
  throwOnError answers.texts (answers.status calls) context
  pure (result calls)

/-- The check of the payload length, with the text of its exception. -/
def checkSize (payload : Payload) (what : String) : Program Call Error Unit :=
  if payload.size > intMax then throw (.invalidArgument what) else pure ()

/-- `check_valid()`: the handle of an object that has one. -/
def checkValid (handle : Option ℕ) (what : String) : Program Call Error ℕ :=
  match handle with
  | some h => pure h
  | none => throw (.natsError .invalidArg what)

/-! ## `connection` -/

def publish (conn : Option ℕ) (subject : String) (payload : Payload) :
    Program Call Error Unit := do
  checkSize payload "publish: payload exceeds INT_MAX bytes"
  send answers (.natsConnectionPublish conn subject) "natsConnection_Publish" payload fun _ => ()

def publishRequest (conn : Option ℕ) (subject replyTo : String) (payload : Payload) :
    Program Call Error Unit := do
  checkSize payload "publish_request: payload exceeds INT_MAX bytes"
  send answers (.natsConnectionPublishRequest conn subject replyTo) "natsConnection_PublishRequest"
    payload fun _ => ()

def sign (conn : Option ℕ) (message : Payload) : Program Call Error (Vector UInt8 64) := do
  checkSize message "sign: message exceeds INT_MAX bytes"
  send answers (.natsConnectionSign conn) "natsConnection_Sign" message answers.sig

/-- The native request, whose reply is wrapped in a message. -/
def natsConnectionRequest (conn : Option ℕ) (subject : String) (payload : Payload)
    (timeout : Int64) : Program Call Error (Option ℕ) :=
  send answers (.natsConnectionRequest conn subject timeout) "natsConnection_Request" payload
    answers.msg

def requestSync (conn : Option ℕ) (subject : String) (payload : Payload) (timeout : Int64) :
    Program Call Error (Option ℕ) := do
  checkSize payload "request_sync: payload exceeds INT_MAX bytes"
  natsConnectionRequest answers conn subject payload timeout

/-- The caller gets a task, to be run on another thread, that has copied `conn_`. -/
def requestAsync (conn : Option ℕ) (subject : String) (payload : Payload) (timeout : Int64) :
    Program Call Error (Program Call Error (Option ℕ)) := do
  checkSize payload "request_async: payload exceeds INT_MAX bytes"
  pure (natsConnectionRequest answers conn subject payload timeout)

/-! ## `message`, `jetstream` and `key_value` -/

/-- `message::create`. -/
def messageCreate (subject replyTo : String) (payload : Payload) :
    Program Call Error (Option ℕ) :=
  send answers (.natsMsgCreate subject (nonempty replyTo)) "natsMsg_Create" payload answers.msg

/-- `jetstream::publish`. -/
def jetstreamPublish (ctx : Option ℕ) (subject : String) (payload : Payload)
    (opts : PublishOptions) : Program Call Error PubAck := do
  let js ← checkValid ctx "jetstream: not initialized"
  send answers (.jsPublish js subject opts.native) "js_Publish" payload fun calls =>
    extractPubAck (answers.ack calls)

/-- `key_value::put`. -/
def kvPut (kv : Option ℕ) (key : String) (value : Payload) : Program Call Error UInt64 := do
  let store ← checkValid kv "key_value: not initialized"
  send answers (.kvStorePut store key) "kvStore_Put" value answers.rev

/-- `key_value::create`. -/
def kvCreate (kv : Option ℕ) (key : String) (value : Payload) : Program Call Error UInt64 := do
  let store ← checkValid kv "key_value: not initialized"
  send answers (.kvStoreCreate store key) "kvStore_Create" value answers.rev

/-- `key_value::update`. -/
def kvUpdate (kv : Option ℕ) (key : String) (value : Payload) (lastRevision : UInt64) :
    Program Call Error UInt64 := do
  let store ← checkValid kv "key_value: not initialized"
  send answers (.kvStoreUpdate store key lastRevision) "kvStore_Update" value answers.rev

end Operations

/-! ## The operations as one family -/

/-- The ten operations that hand a length to nats.c, with their arguments. -/
inductive Operation where
  | publish (conn : Option ℕ) (subject : String)
  | publishRequest (conn : Option ℕ) (subject replyTo : String)
  | requestSync (conn : Option ℕ) (subject : String) (timeout : Int64)
  | requestAsync (conn : Option ℕ) (subject : String) (timeout : Int64)
  | sign (conn : Option ℕ)
  | messageCreate (subject replyTo : String)
  | jetstreamPublish (ctx : Option ℕ) (subject : String) (opts : PublishOptions)
  | kvPut (kv : Option ℕ) (key : String)
  | kvCreate (kv : Option ℕ) (key : String)
  | kvUpdate (kv : Option ℕ) (key : String) (lastRevision : UInt64)

namespace Operation

/-- Whether the operation checks the length before it narrows it. -/
def checksSize : Operation → Bool
  | .publish .. | .publishRequest .. | .requestSync .. | .requestAsync .. | .sign .. => true
  | .messageCreate .. | .jetstreamPublish .. | .kvPut .. | .kvCreate .. | .kvUpdate .. => false

/-- Whether the object has the handle that `check_valid()` asks for. -/
def initialized : Operation → Bool
  | .jetstreamPublish handle .. | .kvPut handle .. | .kvCreate handle .. | .kvUpdate handle .. =>
    handle.isSome
  | _ => true

/-- Runs an operation to its end; that of `request_async` is the end of its task. -/
def run (answers : Answers) (op : Operation) (payload : Payload) : Program Call Error Unit :=
  match op with
  | .publish conn subject => Messaging.publish answers conn subject payload
  | .publishRequest conn subject replyTo =>
    Messaging.publishRequest answers conn subject replyTo payload
  | .requestSync conn subject timeout =>
    discard (Messaging.requestSync answers conn subject payload timeout)
  | .requestAsync conn subject timeout => do
    let task ← Messaging.requestAsync answers conn subject payload timeout
    discard task
  | .sign conn => discard (Messaging.sign answers conn payload)
  | .messageCreate subject replyTo =>
    discard (Messaging.messageCreate answers subject replyTo payload)
  | .jetstreamPublish ctx subject opts =>
    discard (Messaging.jetstreamPublish answers ctx subject payload opts)
  | .kvPut kv key => discard (Messaging.kvPut answers kv key payload)
  | .kvCreate kv key => discard (Messaging.kvCreate answers kv key payload)
  | .kvUpdate kv key lastRevision =>
    discard (Messaging.kvUpdate answers kv key payload lastRevision)

end Operation

/-- How an operation ends that makes no native call: it has thrown
`std::invalid_argument`, or the object was not initialized. -/
def Rejected (op : Operation) (result : Except Error Unit) : Prop :=
  (∃ what, result = .error (.invalidArgument what)) ∨
    (op.initialized = false ∧ ∃ what, result = .error (.natsError .invalidArg what))

/-- Every native call gets the length of the payload, and takes all of it; an
operation that makes no call has rejected its arguments. -/
def LengthSurvives (answers : Answers) (op : Operation) (payload : Payload) : Prop :=
  let (result, calls) := (op.run answers payload).outcome []
  (∀ c ∈ calls, c.dataLen.toInt = payload.bytes.length ∧ c.taken = payload.bytes) ∧
    (calls = [] → Rejected op result)

section Outcomes

variable (answers : Answers) (payload : Payload)

theorem calls_of_send {α : Type} (function : Function) (context : String) (result : List Call → α)
    (calls : List Call) : ((send answers function context payload result).outcome calls).2 =
      calls ++ [⟨function, payload.bytes, toInt payload.size⟩] :=
  calls_of_checked answers.texts (some context) calls answers.status _ result

theorem outcome_checkSize_of_gt (what : String) (h : payload.size > intMax) (calls : List Call) :
    (checkSize payload what).outcome calls = (.error (.invalidArgument what), calls) := by
  rw [checkSize, if_pos h]
  rfl

theorem outcome_checkSize_of_le (what : String) (h : ¬ payload.size > intMax) (calls : List Call) :
    (checkSize payload what).outcome calls = (.ok (), calls) := by
  rw [checkSize, if_neg h]
  rfl

/-- How an operation can end, and the calls that it has made then. -/
inductive RunCases {α : Type} (op : Operation) (payload : Payload) :
    Except Error α × List Call → Prop where
  | tooLong (hcheck : op.checksSize = true) (hsize : payload.size > intMax) (what : String) :
      RunCases op payload (.error (.invalidArgument what), [])
  | notInitialized (hinit : op.initialized = false) (what : String) :
      RunCases op payload (.error (.natsError .invalidArg what), [])
  | called (hcheck : op.checksSize = true → ¬ payload.size > intMax) (hinit : op.initialized = true)
      (outcome : Except Error α × List Call) (function : Function)
      (hcalls : outcome.2 = [⟨function, payload.bytes, toInt payload.size⟩]) :
      RunCases op payload outcome

/-- An operation that checks the length, and then calls nats.c. -/
theorem runCases_of_checkSize {α : Type} {op : Operation} {function : Function} {what : String}
    {rest : Program Call Error α} (hcheck : op.checksSize = true) (hinit : op.initialized = true)
    (hrest : (rest.outcome []).2 = [⟨function, payload.bytes, toInt payload.size⟩]) :
    RunCases op payload (Effect.outcome (checkSize payload what >>= fun _ => rest) []) := by
  rw [Effect.outcome_bind]
  by_cases hsize : payload.size > intMax
  · rw [outcome_checkSize_of_gt _ _ hsize]
    exact .tooLong hcheck hsize what
  · rw [outcome_checkSize_of_le _ _ hsize]
    exact .called (fun _ => hsize) hinit _ function hrest

/-- An operation that asks for the handle, and then calls nats.c. -/
theorem runCases_of_checkValid {α : Type} {op : Operation} {handle : Option ℕ}
    {function : ℕ → Function} {what : String} {rest : ℕ → Program Call Error α}
    (hcheck : op.checksSize = false) (hinit : op.initialized = handle.isSome)
    (hrest : ∀ h, ((rest h).outcome []).2 = [⟨function h, payload.bytes, toInt payload.size⟩]) :
    RunCases op payload (Effect.outcome (checkValid handle what >>= rest) []) := by
  rw [Effect.outcome_bind]
  cases handle with
  | none => exact .notInitialized hinit what
  | some h => exact .called (by simp [hcheck]) hinit _ (function h) (hrest h)

theorem calls_of_discard {κ α : Type} (p : Program κ Error α) {calls calls' : List κ}
    (h : (p.outcome calls).2 = calls') : ((discard p).outcome calls).2 = calls' := by
  change (Effect.outcome (p >>= fun _ => pure ()) calls).2 = calls'
  rw [Effect.outcome_bind, ← h]
  obtain ⟨result, made⟩ := p.outcome calls
  cases result <;> rfl

/-- The result of an operation may be discarded. -/
theorem RunCases.discard {α : Type} {op : Operation} {p : Program Call Error α}
    (h : RunCases op payload (p.outcome [])) : RunCases op payload ((discard p).outcome []) := by
  have hcalls := calls_of_discard p (Eq.refl (p.outcome []).2)
  change RunCases op payload (Effect.outcome (p >>= fun _ => pure ()) [])
  change (Effect.outcome (p >>= fun _ => pure ()) []).2 = _ at hcalls
  rw [Effect.outcome_bind] at hcalls ⊢
  generalize p.outcome [] = outcome at h hcalls
  cases h with
  | tooLong hcheck hsize what => exact .tooLong hcheck hsize what
  | notInitialized hinit what => exact .notInitialized hinit what
  | called hcheck hinit _ function hmade =>
    exact .called hcheck hinit _ function (hcalls.trans hmade)

theorem runCases (op : Operation) : RunCases op payload ((op.run answers payload).outcome []) := by
  cases op with
  | publish conn subject =>
    exact runCases_of_checkSize payload rfl rfl (calls_of_send _ _ _ _ _ _)
  | publishRequest conn subject replyTo =>
    exact runCases_of_checkSize payload rfl rfl (calls_of_send _ _ _ _ _ _)
  | requestSync conn subject timeout =>
    exact (runCases_of_checkSize payload rfl rfl (calls_of_send _ _ _ _ _ _)).discard
  | requestAsync conn subject timeout =>
    change RunCases _ payload (Effect.outcome (requestAsync answers conn subject payload timeout >>=
      fun task => discard task) [])
    rw [requestAsync, bind_assoc]
    exact runCases_of_checkSize payload rfl rfl (calls_of_discard _ (calls_of_send _ _ _ _ _ _))
  | sign conn => exact (runCases_of_checkSize payload rfl rfl (calls_of_send _ _ _ _ _ _)).discard
  | messageCreate subject replyTo =>
    refine RunCases.discard payload (.called (by simp [Operation.checksSize]) rfl _
      (.natsMsgCreate subject (nonempty replyTo)) ?_)
    exact calls_of_send _ _ _ _ _ _
  | jetstreamPublish ctx subject opts =>
    exact (runCases_of_checkValid payload rfl rfl fun h => calls_of_send _ _ _ _ _ _).discard
  | kvPut kv key | kvCreate kv key | kvUpdate kv key lastRevision =>
    exact (runCases_of_checkValid payload rfl rfl fun h => calls_of_send _ _ _ _ _ _).discard

end Outcomes

/-- A call keeps the length of its payload exactly if this fits. -/
theorem dataLen_eq_iff (function : Function) (payload : Payload) :
    (Call.mk function payload.bytes (toInt payload.size)).dataLen.toInt = payload.bytes.length ↔
      payload.size ≤ intMax := by
  rw [← Payload.toNat_size]
  exact toInt_eq_iff payload.size

theorem taken_of_dataLen_eq {c : Call} (h : c.dataLen.toInt = c.data.length) :
    c.taken = c.data := by
  rw [Call.taken, h, Int.toNat_natCast, List.take_length]

/-- The length survives exactly if the operation checks it, or it fits, or the
operation stops before it because its object was not initialized. -/
theorem lengthSurvives_iff (answers : Answers) (op : Operation) (payload : Payload) :
    LengthSurvives answers op payload ↔
      op.checksSize = true ∨ payload.size ≤ intMax ∨ op.initialized = false := by
  have hrun := runCases answers payload op
  rw [LengthSurvives]
  generalize (op.run answers payload).outcome [] = outcome at hrun
  cases hrun with
  | tooLong hcheck hsize what =>
    refine ⟨fun _ => .inl hcheck, fun _ => ⟨by simp, fun _ => ?_⟩⟩
    exact .inl ⟨what, rfl⟩
  | notInitialized hinit what =>
    refine ⟨fun _ => .inr (.inr hinit), fun _ => ⟨by simp, fun _ => ?_⟩⟩
    exact .inr ⟨hinit, what, rfl⟩
  | called hcheck hinit outcome function hcalls =>
    obtain ⟨result, calls⟩ := outcome
    obtain rfl : calls = [⟨function, payload.bytes, toInt payload.size⟩] := hcalls
    have hlen := dataLen_eq_iff function payload
    constructor
    · rintro ⟨hsurvives, -⟩
      exact .inr (.inl (hlen.1 (hsurvives _ (List.mem_singleton.2 rfl)).1))
    · intro hwhen
      have hle : payload.size ≤ intMax := by
        rcases hwhen with hchecks | hle | hnot
        · exact UInt64.not_lt.1 (hcheck hchecks)
        · exact hle
        · simp [hinit] at hnot
      refine ⟨fun c hc => ?_, fun hnil => by simp at hnil⟩
      obtain rfl := List.mem_singleton.1 hc
      exact ⟨hlen.2 hle, taken_of_dataLen_eq (hlen.2 hle)⟩

/-- A payload that is one byte longer than what 32 bits can count. -/
def wrappingPayload : Payload where
  bytes := List.replicate (2 ^ 32 + 1) 0
  size_lt := by rw [List.length_replicate]; decide

/-- An nats.c that accepts every call. -/
def accepting : Answers where
  texts := ⟨fun _ => none, fun _ => none⟩
  status _ := .ok
  msg calls := some calls.length
  ack _ := none
  rev calls := UInt64.ofNat calls.length
  sig _ := Vector.replicate 64 0

/-- `message::create` makes a message of one byte from more than `2 ^ 32`. -/
theorem messageCreate_wraps :
    ¬ LengthSurvives accepting (.messageCreate "subject" "") wrappingPayload := by
  intro hsurvives
  let function : Function := .natsMsgCreate "subject" (nonempty "")
  have hcalls := calls_of_discard (Messaging.messageCreate accepting "subject" "" wrappingPayload)
    (calls_of_send accepting wrappingPayload function _ _ [])
  have hmem : Call.mk function wrappingPayload.bytes (toInt wrappingPayload.size) ∈
      ((Operation.run accepting (.messageCreate "subject" "") wrappingPayload).outcome []).2 :=
    hcalls ▸ List.mem_singleton.2 rfl
  have hlen := (dataLen_eq_iff function wrappingPayload).1 (hsurvives.1 _ hmem).1
  rw [UInt64.le_iff_toNat_le, Payload.toNat_size, wrappingPayload, List.length_replicate] at hlen
  exact absurd hlen (by decide)

end Messaging

end NatsCpp
