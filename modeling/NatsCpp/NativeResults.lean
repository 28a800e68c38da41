import NatsCpp.BatchResults
import NatsCpp.CMemory

/-!
# Results of nats.c, copied into C++ values

The functions that get a C string, an array or an object from nats.c, copy it
into a `std::string`, a vector or a struct, and give it back. An object that
nats.c destroys as a whole is one block; an array whose strings the caller
frees himself is a block with a block for each string. A native function makes
blocks only when it returns `NATS_OK`. Wherever a C++ string or vector needs
memory, it may be refused.
-/
namespace NatsCpp.NativeResults
open Effect CMemory
open Handles (Failure)

/-- `jsStreamInfo`, with the `Name` and the `Description` of its `Config`. -/
structure JsStreamInfo where
  config : Option (Option String × Option String)
  msgs : UInt64
  bytes : UInt64
  firstSeq : UInt64
  lastSeq : UInt64
  consumers : Int64

structure JsConsumerInfo where
  stream : Option String
  name : Option String

structure JsPubAck where
  stream : Option String
  sequence : UInt64
  domain : Option String
  duplicate : Bool

structure JsMsgMetaData where
  sequenceStream : UInt64
  sequenceConsumer : UInt64
  numDelivered : UInt64
  numPending : UInt64
  timestamp : Int64
  stream : Option String
  consumer : Option String
  domain : Option String

structure KvStatus where
  bucket : Option String
  values : UInt64
  history : UInt64
  bytes : UInt64
  ttl : Int64
  replicas : Int32

/-- `jsAccountInfo` and `js_account_info`, which has the same members. -/
structure AccountInfo where
  memory : UInt64 := 0
  store : UInt64 := 0
  streams : Int64 := 0
  consumers : Int64 := 0
  deriving Inhabited

/-- What nats.c puts into memory of its own. -/
inductive Block where
  | string (text : String)
  | pointers (entries : List (Option ℕ))
  | names (entries : List (Option String))
  | streamInfo (info : JsStreamInfo)
  | streamInfoList (list : List (Option JsStreamInfo))
  | consumerInfo (info : JsConsumerInfo)
  | consumerInfoList (list : List (Option JsConsumerInfo))
  | pubAck (ack : JsPubAck)
  | msgMetaData (data : JsMsgMetaData)
  | kvStatus (status : KvStatus)
  | accountInfo (info : AccountInfo)

namespace Block

def string? : Block → Option String
  | .string text => some text
  | _ => none

/-- The pointer at an index of an array. -/
def pointer? (i : ℕ) : Block → Option (Option ℕ)
  | .pointers entries => entries[i]?
  | _ => none

def name? (i : ℕ) : Block → Option (Option String)
  | .names entries => entries[i]?
  | _ => none

def streamInfo? : Block → Option JsStreamInfo
  | .streamInfo info => some info
  | _ => none

def streamInfoAt? (i : ℕ) : Block → Option (Option JsStreamInfo)
  | .streamInfoList list => list[i]?
  | _ => none

def consumerInfo? : Block → Option JsConsumerInfo
  | .consumerInfo info => some info
  | _ => none

def consumerInfoAt? (i : ℕ) : Block → Option (Option JsConsumerInfo)
  | .consumerInfoList list => list[i]?
  | _ => none

/-- `Count`. -/
def count? : Block → Option ℕ
  | .names entries => some entries.length
  | .streamInfoList list => some list.length
  | .consumerInfoList list => some list.length
  | _ => none

def pubAck? : Block → Option JsPubAck
  | .pubAck ack => some ack
  | _ => none

def msgMetaData? : Block → Option JsMsgMetaData
  | .msgMetaData data => some data
  | _ => none

def kvStatus? : Block → Option KvStatus
  | .kvStatus status => some status
  | _ => none

def accountInfo? : Block → Option AccountInfo
  | .accountInfo info => some info
  | _ => none

end Block

structure StreamInfo where
  name : String := ""
  description : String := ""
  messages : UInt64 := 0
  bytes : UInt64 := 0
  firstSeq : UInt64 := 0
  lastSeq : UInt64 := 0
  consumers : Int64 := 0

structure ConsumerInfo where
  streamName : String := ""
  durableName : String := ""

structure PubAck where
  stream : String := ""
  sequence : UInt64 := 0
  domain : String := ""
  duplicate : Bool := false

structure Metadata where
  sequenceStream : UInt64 := 0
  sequenceConsumer : UInt64 := 0
  numDelivered : UInt64 := 0
  numPending : UInt64 := 0
  timestamp : Int64 := 0
  stream : String := ""
  consumer : String := ""
  domain : String := ""

structure BucketStatus where
  bucket : String := ""
  values : UInt64 := 0
  history : UInt64 := 0
  bytes : UInt64 := 0
  ttl : Int64 := 0
  replicas : Int32 := 0

/-- What a native function answers: a status, and a result that counts if it is `NATS_OK`. -/
structure Answer (γ : Type) where
  status : Status
  result : γ

section Parts

variable {α : Type} (texts : ErrorTexts Unit)

/-- `throw_on_error`. -/
def check (status : Status) (context : String) : Effect (Memory Block) Failure Unit :=
  ExceptT.adapt .error ((throwOnError texts status (some context)).within (fun _ => []) fun _ s => s)

/-- The `check_valid` of a class, and the other checks before a native call. -/
def require (condition : Bool) (e : Error) : Effect (Memory Block) Failure Unit :=
  if condition then pure () else throw (.error e)

/-- A native function writes a pointer to a new block to a local variable that was null. -/
def receive (status : Status) (object : Option Block) : Effect (Memory Block) Failure (Option ℕ) :=
  act fun m =>
    if status = .ok then
      match object with
      | some b =>
        let (a, m) := m.allocate b
        (some a, m)
      | none => (none, m)
    else
      (none, m)

/-- A `std::string` made of a member of a native object, the empty string if it is null. -/
def copyMember (view : Block → Option (Option String)) (p : Option ℕ) :
    Effect (Memory Block) Failure String := do
  let text ← load view p
  request .badAlloc
  pure (text.getD "")

/-- A `std::string` made of a C string, the empty string for a null pointer. -/
def copyString (p : Option ℕ) : Effect (Memory Block) Failure String := do
  let text ← if p = none then pure "" else load Block.string? p
  request .badAlloc
  pure text

/-- An object that a native function returns is copied from under a guard that destroys it. -/
def withObject (status : Status) (context : String) (object : Option Block)
    (null : Effect (Memory Block) Failure α) (copy : Option ℕ → Effect (Memory Block) Failure α) :
    Effect (Memory Block) Failure α := do
  let raw ← receive status object
  check texts status context
  if raw = none then null else (copy raw).guarded (·.free raw)

/-- `out.emplace_back(list.Keys[i] != nullptr ? list.Keys[i] : "")`, after `out.reserve`. -/
def copyNames (count : ℕ) (list : Option ℕ) : Effect (Memory Block) Failure (List String) := do
  request .badAlloc
  gather count fun i => copyMember (Block.name? i) list

/-- An array of pointers to C strings that belong to somebody else; it is null if it is empty. -/
def copyPointers (count : ℕ) (array : Option ℕ) : Effect (Memory Block) Failure (List String) := do
  request .badAlloc
  gather count fun i => do
    let p ← load (Block.pointer? i) array
    copyString p

/-- The number of entries of an array that may be null. -/
def countOf {γ : Type} (array : Option (List γ)) : ℕ := (array.map List.length).getD 0

/-- The arrays of `header` and of the headers of `message`, whose strings belong to the header. -/
def fetchPointers (context : String) (answer : Answer (Option (List (Option ℕ)))) :
    Effect (Memory Block) Failure (List String) := do
  let array ← receive answer.status (answer.result.map .pointers)
  check texts answer.status context
  (copyPointers (countOf answer.result) array).guarded (·.free array)

end Parts

namespace Connection

variable (texts : ErrorTexts Unit)

/-- nats.c copies the URLs one by one. -/
def allocateStrings : List (Option String) → Memory Block → List (Option ℕ) × Memory Block
  | [], m => ([], m)
  | none :: urls, m =>
    let (entries, m) := allocateStrings urls m
    (none :: entries, m)
  | some url :: urls, m =>
    let (a, m) := m.allocate (.string url)
    let (entries, m) := allocateStrings urls m
    (some a :: entries, m)

/-- `natsConnection_GetServers`, `natsConnection_GetDiscoveredServers`. -/
def getter (answer : Answer (Option (List (Option String)))) :
    Effect (Memory Block) Failure (Option ℕ) :=
  act fun m =>
    if answer.status = .ok then
      match answer.result with
      | some urls =>
        let (entries, m) := allocateStrings urls m
        let (a, m) := m.allocate (.pointers entries)
        (some a, m)
      | none => (none, m)
    else
      (none, m)

/-- `std::free(arr[i])`. -/
def freeEntry (arr : Option ℕ) (m : Memory Block) (i : ℕ) : Memory Block :=
  match (arr.bind m.content).bind (Block.pointer? i) with
  | some p => m.free p
  | none => { m with fault := true }

/-- The destructor of `list_guard`. -/
def listGuard (arr : Option ℕ) (n : ℕ) (m : Memory Block) : Memory Block :=
  ((List.range n).foldl (freeEntry arr) m).free arr

def fetchServerList (answer : Answer (Option (List (Option String)))) :
    Effect (Memory Block) Failure (List String) := do
  let values ← getter answer
  check texts answer.status "natsConnection_GetServers*"
  let count := countOf answer.result
  (copyPointers count values).guarded (listGuard values count)

def servers (answer : Answer (Option (List (Option String)))) :
    Effect (Memory Block) Failure (List String) :=
  fetchServerList texts answer

def discoveredServers (answer : Answer (Option (List (Option String)))) :
    Effect (Memory Block) Failure (List String) :=
  fetchServerList texts answer

def lastError (answer : Answer (Option ℕ)) : Effect (Memory Block) Failure String := do
  check texts answer.status "natsConnection_GetLastError"
  copyString answer.result

def clientIp (answer : Answer (Option String)) : Effect (Memory Block) Failure String :=
  withObject texts answer.status "natsConnection_GetClientIP" (answer.result.map .string) (pure "")
    copyString

def localIpAndPort (answer : Answer (Option String × Int32)) :
    Effect (Memory Block) Failure (String × Int32) :=
  withObject texts answer.status "natsConnection_GetLocalIPAndPort" (answer.result.1.map .string)
    (pure ("", answer.result.2)) fun ip => do
      let ip ← copyString ip
      pure (ip, answer.result.2)

def newInbox (answer : Answer String) : Effect (Memory Block) Failure String :=
  withObject texts answer.status "natsInbox_Create" (some (.string answer.result)) (pure "")
    copyString

end Connection

namespace Message

variable (texts : ErrorTexts Unit) (msg : Bool)

/-- `header`; a status that is not `NATS_OK` gives the empty string. -/
def header (answer : Answer (Option ℕ)) : Effect (Memory Block) Failure String :=
  if msg ∧ answer.status = .ok ∧ answer.result ≠ none then copyString answer.result else pure ""

def headerValues (answer : Answer (Option (List (Option ℕ)))) :
    Effect (Memory Block) Failure (List String) :=
  if msg then fetchPointers texts "natsMsgHeader_Values" answer else pure []

def headerKeys (answer : Answer (Option (List (Option ℕ)))) :
    Effect (Memory Block) Failure (List String) :=
  if msg then fetchPointers texts "natsMsgHeader_Keys" answer else pure []

/-- The members of a `jsMsgMetaData`, read one by one. -/
def copyMetadata (raw : Option ℕ) : Effect (Memory Block) Failure Metadata := do
  let sequenceStream ← load (·.msgMetaData?.map (·.sequenceStream)) raw
  let sequenceConsumer ← load (·.msgMetaData?.map (·.sequenceConsumer)) raw
  let numDelivered ← load (·.msgMetaData?.map (·.numDelivered)) raw
  let numPending ← load (·.msgMetaData?.map (·.numPending)) raw
  let timestamp ← load (·.msgMetaData?.map (·.timestamp)) raw
  let stream ← copyMember (·.msgMetaData?.map (·.stream)) raw
  let consumer ← copyMember (·.msgMetaData?.map (·.consumer)) raw
  let domain ← copyMember (·.msgMetaData?.map (·.domain)) raw
  pure ⟨sequenceStream, sequenceConsumer, numDelivered, numPending, timestamp, stream, consumer,
    domain⟩

def getMetadata (answer : Answer JsMsgMetaData) : Effect (Memory Block) Failure Metadata := do
  require msg (.natsError .invalidArg "message::get_metadata: not initialized")
  withObject texts answer.status "natsMsg_GetMetaData" (some (.msgMetaData answer.result)) (pure {})
    copyMetadata

end Message

namespace Header

variable (texts : ErrorTexts Unit) (raw : Bool)

def checkValid : Effect (Memory Block) Failure Unit :=
  require raw (.natsError .invalidArg "header: not initialized")

def get (answer : Answer (Option ℕ)) : Effect (Memory Block) Failure String := do
  checkValid raw
  check texts answer.status "natsHeader_Get"
  copyString answer.result

def values (answer : Answer (Option (List (Option ℕ)))) :
    Effect (Memory Block) Failure (List String) := do
  checkValid raw
  fetchPointers texts "natsHeader_Values" answer

def keys (answer : Answer (Option (List (Option ℕ)))) :
    Effect (Memory Block) Failure (List String) := do
  checkValid raw
  fetchPointers texts "natsHeader_Keys" answer

end Header

/-- The two names of a `jsConsumerInfo`. -/
def copyConsumerInfo (view : Block → Option JsConsumerInfo) (raw : Option ℕ) :
    Effect (Memory Block) Failure ConsumerInfo := do
  let streamName ← copyMember (fun b => (view b).map (·.stream)) raw
  let durableName ← copyMember (fun b => (view b).map (·.name)) raw
  pure ⟨streamName, durableName⟩

/-- `subscription::get_consumer_info`, which has names of its own for the two members. -/
def Subscription.getConsumerInfo (texts : ErrorTexts Unit) (sub : Bool)
    (answer : Answer (Option JsConsumerInfo)) : Effect (Memory Block) Failure ConsumerInfo := do
  require sub (.natsError .invalidArg "subscription: not initialized")
  withObject texts answer.status "natsSubscription_GetConsumerInfo"
    (answer.result.map .consumerInfo) (pure {}) (copyConsumerInfo Block.consumerInfo?)

namespace Jetstream

variable (texts : ErrorTexts Unit) (ctx : Bool)

def checkValid : Effect (Memory Block) Failure Unit :=
  require ctx (.natsError .invalidArg "jetstream: not initialized")

def extractPubAck (raw : Option ℕ) : Effect (Memory Block) Failure PubAck := do
  let stream ← copyMember (·.pubAck?.map (·.stream)) raw
  let sequence ← load (·.pubAck?.map (·.sequence)) raw
  let domain ← copyMember (·.pubAck?.map (·.domain)) raw
  let duplicate ← load (·.pubAck?.map (·.duplicate)) raw
  pure ⟨stream, sequence, domain, duplicate⟩

/-- `publish` and `publish_msg`, from their native call on. -/
def publish (context : String) (answer : Answer (Option JsPubAck)) :
    Effect (Memory Block) Failure PubAck := do
  checkValid ctx
  withObject texts answer.status context (answer.result.map .pubAck) (pure {}) extractPubAck

/-- The name and the description, if there is a `Config`. -/
def extractConfig (view : Block → Option JsStreamInfo) (si : Option ℕ) :
    Effect (Memory Block) Failure (String × String) := do
  let config ← load (fun b => (view b).map (·.config.isSome)) si
  if config then
    let name ← copyMember (fun b => (view b).bind fun info => info.config.map (·.1)) si
    let description ← copyMember (fun b => (view b).bind fun info => info.config.map (·.2)) si
    pure (name, description)
  else
    pure ("", "")

def extractStreamInfo (view : Block → Option JsStreamInfo) (si : Option ℕ) :
    Effect (Memory Block) Failure StreamInfo := do
  let config ← extractConfig view si
  let messages ← load (fun b => (view b).map (·.msgs)) si
  let bytes ← load (fun b => (view b).map (·.bytes)) si
  let firstSeq ← load (fun b => (view b).map (·.firstSeq)) si
  let lastSeq ← load (fun b => (view b).map (·.lastSeq)) si
  let consumers ← load (fun b => (view b).map (·.consumers)) si
  pure ⟨config.1, config.2, messages, bytes, firstSeq, lastSeq, consumers⟩

def getStreamInfo (name : String) (answer : Answer (Option JsStreamInfo)) :
    Effect (Memory Block) Failure StreamInfo := do
  checkValid ctx
  require (name ≠ "") (.invalidArgument "stream name cannot be empty")
  withObject texts answer.status "js_GetStreamInfo" (answer.result.map .streamInfo) (pure {})
    (extractStreamInfo Block.streamInfo?)

/-- The loop over a list of infos: an entry that is null is left out. -/
def copyInfos {α γ : Type} (entry : ℕ → Block → Option (Option γ))
    (copy : (Block → Option γ) → Option ℕ → Effect (Memory Block) Failure α) (list : Option ℕ) :
    Effect (Memory Block) Failure (List α) := do
  let count ← load Block.count? list
  request .badAlloc
  let out ← gather count fun i => do
    let present ← load (fun b => (entry i b).map Option.isSome) list
    if present then
      let info ← copy (fun b => (entry i b).join) list
      pure (some info)
    else
      pure none
  pure out.reduceOption

def listStreams (answer : Answer (Option (List (Option JsStreamInfo)))) :
    Effect (Memory Block) Failure (List StreamInfo) := do
  checkValid ctx
  withObject texts answer.status "js_Streams" (answer.result.map .streamInfoList) (pure [])
    (copyInfos Block.streamInfoAt? extractStreamInfo)

/-- `list_stream_names` and `list_consumer_group_names` read the length off the list. -/
def listNames (context : String) (answer : Answer (Option (List (Option String)))) :
    Effect (Memory Block) Failure (List String) :=
  withObject texts answer.status context (answer.result.map .names) (pure []) fun list => do
    let count ← load Block.count? list
    copyNames count list

def listStreamNames (answer : Answer (Option (List (Option String)))) :
    Effect (Memory Block) Failure (List String) := do
  checkValid ctx
  listNames texts "js_StreamNames" answer

def getConsumerGroup (stream durableName : String) (answer : Answer (Option JsConsumerInfo)) :
    Effect (Memory Block) Failure ConsumerInfo := do
  checkValid ctx
  require (stream ≠ "") (.invalidArgument "consumer stream cannot be empty")
  require (durableName ≠ "") (.invalidArgument "consumer durable name cannot be empty")
  withObject texts answer.status "js_GetConsumerInfo" (answer.result.map .consumerInfo) (pure {})
    (copyConsumerInfo Block.consumerInfo?)

def listConsumerGroups (stream : String) (answer : Answer (Option (List (Option JsConsumerInfo)))) :
    Effect (Memory Block) Failure (List ConsumerInfo) := do
  checkValid ctx
  require (stream ≠ "") (.invalidArgument "consumer stream cannot be empty")
  withObject texts answer.status "js_Consumers" (answer.result.map .consumerInfoList) (pure [])
    (copyInfos Block.consumerInfoAt? copyConsumerInfo)

def listConsumerGroupNames (stream : String) (answer : Answer (Option (List (Option String)))) :
    Effect (Memory Block) Failure (List String) := do
  checkValid ctx
  require (stream ≠ "") (.invalidArgument "consumer stream cannot be empty")
  listNames texts "js_ConsumerNames" answer

def getAccountInfo (answer : Answer (Option AccountInfo)) :
    Effect (Memory Block) Failure AccountInfo := do
  checkValid ctx
  withObject texts answer.status "js_GetAccountInfo" (answer.result.map .accountInfo) (pure {})
    (load Block.accountInfo?)

end Jetstream

namespace KeyValue

variable (texts : ErrorTexts Unit) (kv : Bool)

def checkValid : Effect (Memory Block) Failure Unit :=
  require kv (.natsError .invalidArg "key_value: not initialized")

/-- A `kvKeysList` is a local variable with a pointer and a count. -/
def fetchKeys (context : String) (answer : Answer (Option (List (Option String)))) :
    Effect (Memory Block) Failure (List String) := do
  let list ← receive answer.status (answer.result.map .names)
  check texts answer.status context
  (copyNames (countOf answer.result) list).guarded (·.free list)

def keys (answer : Answer (Option (List (Option String)))) :
    Effect (Memory Block) Failure (List String) := do
  checkValid kv
  fetchKeys texts "kvStore_Keys" answer

def copyStatus (raw : Option ℕ) : Effect (Memory Block) Failure BucketStatus := do
  let bucket ← copyMember (·.kvStatus?.map (·.bucket)) raw
  let values ← load (·.kvStatus?.map (·.values)) raw
  let history ← load (·.kvStatus?.map (·.history)) raw
  let bytes ← load (·.kvStatus?.map (·.bytes)) raw
  let ttl ← load (·.kvStatus?.map (·.ttl)) raw
  let replicas ← load (·.kvStatus?.map (·.replicas)) raw
  pure ⟨bucket, values, history, bytes, ttl, replicas⟩

def status (answer : Answer KvStatus) : Effect (Memory Block) Failure BucketStatus := do
  checkValid kv
  withObject texts answer.status "kvStore_Status" (some (.kvStatus answer.result)) (pure {})
    copyStatus

end KeyValue

/-- The calls of the functions above, with what nats.c answers. An object that has no native one
has `false` for it. -/
inductive Accessor : Type → Type where
  | servers (answer : Answer (Option (List (Option String)))) : Accessor (List String)
  | discoveredServers (answer : Answer (Option (List (Option String)))) : Accessor (List String)
  | lastError (answer : Answer (Option ℕ)) : Accessor String
  | clientIp (answer : Answer (Option String)) : Accessor String
  | localIpAndPort (answer : Answer (Option String × Int32)) : Accessor (String × Int32)
  | newInbox (answer : Answer String) : Accessor String
  | messageHeader (msg : Bool) (answer : Answer (Option ℕ)) : Accessor String
  | messageHeaderValues (msg : Bool) (answer : Answer (Option (List (Option ℕ)))) :
    Accessor (List String)
  | messageHeaderKeys (msg : Bool) (answer : Answer (Option (List (Option ℕ)))) :
    Accessor (List String)
  | getMetadata (msg : Bool) (answer : Answer JsMsgMetaData) : Accessor Metadata
  | headerGet (raw : Bool) (answer : Answer (Option ℕ)) : Accessor String
  | headerValues (raw : Bool) (answer : Answer (Option (List (Option ℕ)))) : Accessor (List String)
  | headerKeys (raw : Bool) (answer : Answer (Option (List (Option ℕ)))) : Accessor (List String)
  | getConsumerInfo (sub : Bool) (answer : Answer (Option JsConsumerInfo)) : Accessor ConsumerInfo
  | publish (ctx : Bool) (context : String) (answer : Answer (Option JsPubAck)) : Accessor PubAck
  | getStreamInfo (ctx : Bool) (name : String) (answer : Answer (Option JsStreamInfo)) :
    Accessor StreamInfo
  | listStreams (ctx : Bool) (answer : Answer (Option (List (Option JsStreamInfo)))) :
    Accessor (List StreamInfo)
  | listStreamNames (ctx : Bool) (answer : Answer (Option (List (Option String)))) :
    Accessor (List String)
  | getConsumerGroup (ctx : Bool) (stream durableName : String)
    (answer : Answer (Option JsConsumerInfo)) : Accessor ConsumerInfo
  | listConsumerGroups (ctx : Bool) (stream : String)
    (answer : Answer (Option (List (Option JsConsumerInfo)))) : Accessor (List ConsumerInfo)
  | listConsumerGroupNames (ctx : Bool) (stream : String)
    (answer : Answer (Option (List (Option String)))) : Accessor (List String)
  | getAccountInfo (ctx : Bool) (answer : Answer (Option AccountInfo)) : Accessor AccountInfo
  | keys (kv : Bool) (answer : Answer (Option (List (Option String)))) : Accessor (List String)
  | bucketStatus (kv : Bool) (answer : Answer KvStatus) : Accessor BucketStatus

def Accessor.run (texts : ErrorTexts Unit) {α : Type} :
    Accessor α → Effect (Memory Block) Failure α
  | .servers answer => Connection.servers texts answer
  | .discoveredServers answer => Connection.discoveredServers texts answer
  | .lastError answer => Connection.lastError texts answer
  | .clientIp answer => Connection.clientIp texts answer
  | .localIpAndPort answer => Connection.localIpAndPort texts answer
  | .newInbox answer => Connection.newInbox texts answer
  | .messageHeader msg answer => Message.header msg answer
  | .messageHeaderValues msg answer => Message.headerValues texts msg answer
  | .messageHeaderKeys msg answer => Message.headerKeys texts msg answer
  | .getMetadata msg answer => Message.getMetadata texts msg answer
  | .headerGet raw answer => Header.get texts raw answer
  | .headerValues raw answer => Header.values texts raw answer
  | .headerKeys raw answer => Header.keys texts raw answer
  | .getConsumerInfo sub answer => Subscription.getConsumerInfo texts sub answer
  | .publish ctx context answer => Jetstream.publish texts ctx context answer
  | .getStreamInfo ctx name answer => Jetstream.getStreamInfo texts ctx name answer
  | .listStreams ctx answer => Jetstream.listStreams texts ctx answer
  | .listStreamNames ctx answer => Jetstream.listStreamNames texts ctx answer
  | .getConsumerGroup ctx stream durableName answer =>
    Jetstream.getConsumerGroup texts ctx stream durableName answer
  | .listConsumerGroups ctx stream answer => Jetstream.listConsumerGroups texts ctx stream answer
  | .listConsumerGroupNames ctx stream answer =>
    Jetstream.listConsumerGroupNames texts ctx stream answer
  | .getAccountInfo ctx answer => Jetstream.getAccountInfo texts ctx answer
  | .keys kv answer => KeyValue.keys texts kv answer
  | .bucketStatus kv answer => KeyValue.status texts kv answer

end NatsCpp.NativeResults
