import NatsCpp.OwningWrappers

/-!
# Calls that consume a message or make a handle

The calls that pass the raw pointer of a message to the native library, and the
functions of `key_value` and `jetstream` that make handles. The statuses that
the native calls return are parameters. A native constructor yields a handle
exactly when it returns `NATS_OK`, and a native publish or request call does
not take its message.
-/
namespace NatsCpp.Handles
open Effect

namespace State

/-- A native constructor that writes its result to a local variable. -/
def native (τ : NativeType) (status : Status) (s : State) : Pointer τ × State :=
  if status = .ok then s.create τ else (.null, s)

/-- A native constructor that writes its result to a member of an object. -/
def nativeInto {τ : NativeType} (m : Member τ) (x : ℕ) (status : Status) (s : State) : State :=
  if status = .ok then
    let (p, s) := s.create τ
    s.store m x p
  else
    s

/-- A native constructor makes a store in the context of an object and writes it to the object. -/
def storeInto (x : ℕ) (status : Status) (s : State) : State :=
  if status = .ok then
    let (kv, t) := s.create .kvStore
    { t.store keyValueKv x kv with parents := s.parents ++ [(kv, s.load keyValueCtx x)] }
  else
    s

end State

section Calls

variable (texts : ErrorTexts Unit)

/-- `throw_on_error`. -/
def check (status : Status) (context : String) : Effect State Error Unit :=
  (throwOnError texts status (some context)).within (fun _ => []) fun _ s => s

/-- `throw_on_error` of a native constructor that writes to a member. -/
def makeMember {τ : NativeType} (m : Member τ) (x : ℕ) (status : Status) (context : String) :
    Effect State Error Unit := do
  update (State.nativeInto m x status)
  check texts status context

/-- `throw_on_error` of `js_KeyValue` or `js_CreateKeyValue`. -/
def makeStore (x : ℕ) (status : Status) (context : String) : Effect State Error Unit := do
  update (State.storeInto x status)
  check texts status context

/-- A call with `std::move` of an object as the parameter of type `message`. -/
def callByValue {α : Type} (f : ℕ → Effect State Error α) (x : ℕ) : Effect State Error α := do
  let msg ← act (messageMsg.uniqueMoveConstruct x)
  (f msg).guarded (destruct msg)

namespace Connection

/-- `connection::publish(message)`. -/
def publish (status : Status) (msg : ℕ) : Effect State Error Unit := do
  let raw ← act (messageMsg.release msg)
  update (·.destroy raw)
  check texts status "natsConnection_PublishMsg"

/-- `connection::request(message, timeout)`. -/
def request (status : Status) (requestMessage : ℕ) : Effect State Error ℕ := do
  let raw ← act (messageMsg.release requestMessage)
  let reply ← act (State.native .natsMsg status)
  update (·.destroy raw)
  check texts status "natsConnection_RequestMsg"
  act (·.allocate (.message reply))

end Connection

namespace Jetstream

/-- `jetstream(connection&)`; where it throws, no object has been made. -/
def make (status : Status) : Effect State Error ℕ := do
  let this ← act (·.allocate Class.jetstream.empty)
  (makeMember texts jetstreamCtx.toMember this status "natsConnection_JetStream").unwinding
    (·.forget this)
  pure this

def checkValid (this : ℕ) : Effect State Error Unit := do
  let ctx ← act fun s => (s.load jetstreamCtx.toMember this, s)
  if ctx = .null then throw (.natsError .invalidArg "jetstream: not initialized") else pure ()

/-- `extract_pub_ack`: the copies are made and the acknowledgment is destroyed. -/
def extractPubAck (raw : Pointer .jsPubAck) : Effect State Error Unit :=
  update (·.destroy raw)

def publishMsg (this : ℕ) (status : Status) (msg : ℕ) : Effect State Error Unit := do
  checkValid this
  let raw ← act (messageMsg.release msg)
  let ack ← act (State.native .jsPubAck status)
  update (·.destroy raw)
  check texts status "js_PublishMsg"
  extractPubAck ack

end Jetstream

namespace KeyValue

/-- The body of `key_value(conn, bucket)`. -/
def openBucket (jetStream keyValue : Status) (this : ℕ) : Effect State Error Unit := do
  makeMember texts keyValueCtx this jetStream "natsConnection_JetStream"
  (makeStore texts this keyValue "js_KeyValue").unwinding fun s =>
    (s.destroy (s.load keyValueCtx this)).store keyValueCtx this .null

/-- `key_value(conn, bucket)`; where the body throws, the destructor does not run. -/
def make (jetStream keyValue : Status) : Effect State Error ℕ := do
  let this ← act (·.allocate Class.keyValue.empty)
  (openBucket texts jetStream keyValue this).unwinding (·.forget this)
  pure this

/-- The body of `create(conn, config)` once it has its local `out`. -/
def createBucket (jetStream configInit createKeyValue : Status) (out : ℕ) :
    Effect State Error Unit := do
  makeMember texts keyValueCtx out jetStream "natsConnection_JetStream"
  check texts configInit "kvConfig_Init"
  (makeStore texts out createKeyValue "js_CreateKeyValue").unwinding (destroySelf out)

/-- `return out`; the compiler may construct `out` in place of the result. -/
def returnOut (elided : Bool) (out : ℕ) : Effect State Error ℕ :=
  if elided then
    pure out
  else do
    let result ← act (moveConstruct out)
    update (destruct out)
    pure result

/-- `create(conn, config)`. -/
def create (jetStream configInit createKeyValue : Status) (elided : Bool) :
    Effect State Error ℕ := do
  let out ← act (·.allocate Class.keyValue.empty)
  (createBucket texts jetStream configInit createKeyValue out).unwinding (destruct out)
  returnOut elided out

def deleteBucket (jetStream deleteKeyValue : Status) : Effect State Error Unit := do
  let ctx ← act (State.native .jsCtx jetStream)
  check texts jetStream "natsConnection_JetStream"
  (check texts deleteKeyValue "js_DeleteKeyValue").unwinding (·.destroy ctx)
  update (·.destroy ctx)

end KeyValue

end Calls

/-! ## Contracts of the calls -/

/-- The object at the address, and the handles in flight. -/
def At (x : ℕ) (w : Wrapper) (l : List Handle) (s : State) : Prop :=
  s.Settled l ∧ s.objectAt x = some w

section Contracts

variable (texts : ErrorTexts Unit) {l : List Handle} {x : ℕ} {w : Wrapper} {τ : NativeType}

theorem contract_check (P : State → Prop) (status : Status) (context : String) :
    Contract P (check texts status context) (fun _ s => P s ∧ status = .ok)
      (fun s => P s ∧ status ≠ .ok) := by
  intro s hs
  by_cases hok : status = .ok
  · subst hok
    exact ⟨hs, rfl⟩
  · have hthrow := outcome_throwOnError_of_ne texts status (some context) [] hok
    rw [check, outcome_within, hthrow]
    exact ⟨hs, hok⟩

theorem contract_native (τ : NativeType) (status : Status) (E : State → Prop) :
    Contract (State.Settled · l) (act (State.native τ status) : Effect State Error (Pointer τ))
      (fun p s => s.Settled (p.handles ++ l) ∧ (status ≠ .ok → p = .null)) E := by
  refine Contract.act fun s hs => ?_
  by_cases hok : status = .ok
  · simp only [State.native, if_pos hok]
    exact ⟨hs.create, fun hne => absurd hok hne⟩
  · simp only [State.native, if_neg hok]
    exact ⟨hs, fun _ => trivial⟩

/-- A native constructor that changes the state only if it returns `NATS_OK`. -/
theorem contract_constructor {f : State → State} {P Q : State → Prop} (status : Status)
    (context : String) (hok : status = .ok → ∀ s, P s → Q (f s))
    (hne : status ≠ .ok → ∀ s, f s = s) :
    Contract P (do update f; check texts status context) (fun _ => Q) P := by
  by_cases hstatus : status = .ok
  · refine Contract.bind (Q := fun _ => Q) (Contract.update (hok hstatus)) fun _ => ?_
    exact (contract_check texts _ status context).weaken (fun _ hs => hs) (fun _ _ hs => hs.1)
      fun _ hs => absurd hstatus hs.2
  · refine Contract.bind (Q := fun _ => P) (Contract.update fun s hs => ?_) fun _ => ?_
    · rwa [hne hstatus s]
    · exact (contract_check texts _ status context).weaken (fun _ hs => hs)
        (fun _ _ hs => absurd hs.2 hstatus) fun _ hs => hs.1

/-- A member that is null gets the new handle, or stays null when the call throws. -/
theorem contract_makeMember {m : Member τ} (hm : m.get w = some .null) (status : Status)
    (context : String) : Contract (At x w l) (makeMember texts m x status context)
      (fun _ s => ∃ p, At x (m.set p w) l s) (At x w l) := by
  refine contract_constructor texts status context (fun hok s hs => ?_) fun hne s => ?_
  · obtain ⟨hsettled, hw⟩ := hs
    rw [State.nativeInto, if_pos hok]
    exact ⟨_, hsettled.create.store (s := (s.create τ).2) hw hm, objectAt_store_self hw hm⟩
  · rw [State.nativeInto, if_neg hne]

/-- An object with a context gets the store that is made in it. -/
theorem contract_makeStore (ctx : Pointer .jsCtx) (status : Status) (context : String) :
    Contract (At x (.keyValue ctx .null) l) (makeStore texts x status context)
      (fun _ s => ∃ kv, At x (.keyValue ctx kv) l s) (At x (.keyValue ctx .null) l) := by
  refine contract_constructor texts status context (fun hok s hs => ?_) fun hne s => ?_
  · obtain ⟨hsettled, hw⟩ := hs
    have hstore := hsettled.create.store (s := (s.create .kvStore).2) (m := keyValueKv) hw rfl
    have hobject := objectAt_store_self (s := (s.create .kvStore).2)
      (p := (s.create .kvStore).1) (m := keyValueKv) hw rfl
    rw [State.storeInto, if_pos hok]
    exact ⟨_, hstore, hobject⟩
  · rw [State.storeInto, if_neg hne]

/-- An effect that leaves as many handles in flight as it found, however it ends. -/
def Keeps {α : Type} (l : List Handle) (p : Effect State Error α) : Prop :=
  Contract (State.Settled · l) p (fun _ => (State.Settled · l)) (State.Settled · l)

theorem keeps_check (status : Status) (context : String) : Keeps l (check texts status context) :=
  (contract_check texts _ status context).weaken (fun _ hs => hs) (fun _ _ hs => hs.1)
    fun _ hs => hs.1

theorem keeps_callByValue {α : Type} {f : ℕ → Effect State Error α} (hf : ∀ msg, Keeps l (f msg))
    (x : ℕ) : Keeps l (callByValue f x) := by
  refine Contract.bind (Q := fun _ => (State.Settled · l)) ?_ fun msg => ?_
  · exact Contract.act fun _ hs => settled_uniqueMoveConstruct messageMsg x hs
  · refine Contract.guarded ((hf msg).weaken (fun _ hs => hs) ?_ ?_)
    · exact fun _ _ hs => hs.destruct msg
    · exact fun _ hs => hs.destruct msg

/-- The message is destroyed on success and on error. -/
theorem Connection.keeps_publish (status : Status) (msg : ℕ) :
    Keeps l (Connection.publish texts status msg) := by
  refine Contract.bind (Q := fun raw => (State.Settled · (raw.handles ++ l))) ?_ fun raw => ?_
  · exact Contract.act fun _ hs => settled_release messageMsg.toMember msg hs
  · refine Contract.bind (Q := fun _ => (State.Settled · l)) ?_ fun _ => ?_
    · exact Contract.update fun _ hs => hs.destroy
    · exact keeps_check texts status _

/-- A call that takes a raw message and yields a handle: the message is destroyed before the
status is checked, and an error leaves no handle. -/
theorem contract_exchangeMessage {α : Type} {Q : α → State → Prop} (raw : Pointer .natsMsg)
    (status : Status) (context : String) {f : Pointer τ → Effect State Error α}
    (hf : ∀ p, Contract (State.Settled · (p.handles ++ l)) (f p) Q (State.Settled · l)) :
    Contract (State.Settled · (raw.handles ++ l))
      (do
        let p ← act (State.native τ status)
        update (·.destroy raw)
        check texts status context
        f p) Q (State.Settled · l) := by
  refine Contract.bind (contract_native τ status _) fun p => ?_
  refine Contract.bind
    (Q := fun _ s => s.Settled (p.handles ++ l) ∧ (status ≠ .ok → p = .null)) ?_ fun _ => ?_
  · exact Contract.update fun s hs => ⟨hs.1.swap.destroy, hs.2⟩
  · refine Contract.bind (Q := fun _ => (State.Settled · (p.handles ++ l))) ?_ fun _ => hf p
    refine (contract_check texts _ status context).weaken (fun _ hs => hs) (fun _ _ hs => hs.1.1) ?_
    intro s hs
    obtain ⟨⟨hsettled, hnull⟩, hne⟩ := hs
    rwa [hnull hne] at hsettled

theorem Connection.keeps_request (status : Status) (msg : ℕ) :
    Keeps l (Connection.request texts status msg) := by
  refine Contract.bind (Q := fun raw => (State.Settled · (raw.handles ++ l))) ?_ fun raw => ?_
  · exact Contract.act fun _ hs => settled_release messageMsg.toMember msg hs
  · refine contract_exchangeMessage texts raw status _ fun reply => ?_
    exact Contract.act fun _ hs => State.Settled.allocate (w := .message reply) hs

theorem Jetstream.keeps_checkValid (this : ℕ) : Keeps l (Jetstream.checkValid this) := by
  refine Contract.bind (Q := fun _ => (State.Settled · l)) (Contract.act fun _ hs => hs)
    fun ctx => ?_
  by_cases hctx : ctx = .null
  · rw [if_pos hctx]
    exact Contract.throw fun _ hs => hs
  · rw [if_neg hctx]
    exact Contract.pure fun _ hs => hs

/-- A null context throws before the message is released. -/
theorem Jetstream.keeps_publishMsg (this : ℕ) (status : Status) (msg : ℕ) :
    Keeps l (Jetstream.publishMsg texts this status msg) := by
  refine Contract.bind (Jetstream.keeps_checkValid this) fun _ => ?_
  refine Contract.bind (Q := fun raw => (State.Settled · (raw.handles ++ l))) ?_ fun raw => ?_
  · exact Contract.act fun _ hs => settled_release messageMsg.toMember msg hs
  · refine contract_exchangeMessage texts raw status _ fun ack => ?_
    exact Contract.update fun _ hs => hs.destroy

/-- An object whose constructor throws goes away without its destructor. -/
theorem keeps_make {c : Class} {body : ℕ → Effect State Error Unit}
    (hbody : ∀ this, Contract (At this c.empty l) (body this) (fun _ => (State.Settled · l))
      (At this c.empty l)) :
    Keeps l (do
      let this ← act (·.allocate c.empty)
      (body this).unwinding (·.forget this)
      pure this) := by
  refine Contract.bind (Q := fun this => At this c.empty l) ?_ fun this => ?_
  · refine Contract.act fun s hs => ⟨State.Settled.allocate ?_, objectAt_allocate_self⟩
    rwa [handles_empty]
  · refine Contract.bind (Q := fun _ => (State.Settled · l)) (Contract.unwinding ?_) fun _ =>
      Contract.pure fun _ hs => hs
    refine (hbody this).weaken (fun _ hs => hs) (fun _ _ hs => hs) ?_
    intro s hs
    have hforget := hs.1.forget hs.2
    rwa [handles_empty] at hforget

theorem Jetstream.keeps_make (status : Status) : Keeps l (Jetstream.make texts status) := by
  refine Handles.keeps_make (c := .jetstream) fun this => ?_
  refine (contract_makeMember (w := Class.jetstream.empty) texts rfl status _).weaken
    (fun _ hs => hs) ?_ fun _ hs => hs
  exact fun _ _ hs => hs.choose_spec.1

namespace KeyValue

theorem contract_openBucket (jetStream keyValue : Status) (this : ℕ) :
    Contract (At this Class.keyValue.empty l) (openBucket texts jetStream keyValue this)
      (fun _ => (State.Settled · l)) (At this Class.keyValue.empty l) := by
  refine Contract.bind
    (contract_makeMember (w := Class.keyValue.empty) (m := keyValueCtx) texts rfl jetStream _)
    fun _ => Contract.unwinding fun s hs => ?_
  obtain ⟨ctx, hctx⟩ := hs
  have hmake := contract_makeStore texts (l := l) (x := this) ctx keyValue "js_KeyValue"
  refine hmake.weaken (fun _ hs => hs) (fun _ _ hs => hs.choose_spec.1) ?_ s hctx
  exact fun t ht => ⟨settled_clear keyValueCtx this ht.1, objectAt_clear ht.2 rfl⟩

theorem keeps_make (jetStream keyValue : Status) : Keeps l (make texts jetStream keyValue) :=
  Handles.keeps_make (c := .keyValue) (contract_openBucket texts jetStream keyValue)

/-- `out` is a `key_value` object when its destructor runs. -/
def OutAt (out : ℕ) (l : List Handle) (s : State) : Prop :=
  ∃ ctx kv, At out (.keyValue ctx kv) l s

theorem OutAt.destruct {s : State} {out : ℕ} (hs : OutAt out l s) :
    (KeyValue.destruct out s).Settled l := by
  obtain ⟨ctx, kv, hsettled, hout⟩ := hs
  exact settled_destruct hsettled hout

/-- After `destroy_self` nothing is left for the destructor of `out`. -/
theorem contract_createBucket (jetStream configInit createKeyValue : Status) (out : ℕ) :
    Contract (At out Class.keyValue.empty l)
      (createBucket texts jetStream configInit createKeyValue out)
      (fun _ => OutAt out l) (OutAt out l) := by
  have hctx := contract_makeMember (l := l) (x := out) (w := Class.keyValue.empty)
    (m := keyValueCtx) texts rfl jetStream "natsConnection_JetStream"
  refine Contract.bind (hctx.weaken (fun _ hs => hs) (fun _ _ hs => hs)
    fun _ hs => ⟨.null, .null, hs⟩) fun _ => ?_
  refine Contract.bind (Q := fun _ s => ∃ ctx, At out (.keyValue ctx .null) l s) ?_ fun _ => ?_
  · refine (contract_check texts _ configInit _).weaken (fun _ hs => hs) (fun _ _ hs => hs.1) ?_
    intro s hs
    obtain ⟨⟨ctx, hctx⟩, -⟩ := hs
    exact ⟨ctx, .null, hctx⟩
  · refine Contract.unwinding fun s hs => ?_
    obtain ⟨ctx, hctx⟩ := hs
    have hmake := contract_makeStore texts (l := l) (x := out) ctx createKeyValue
      "js_CreateKeyValue"
    refine hmake.weaken (fun _ hs => hs) ?_ ?_ s hctx
    · intro _ t ht
      obtain ⟨kv, hkv⟩ := ht
      exact ⟨ctx, kv, hkv⟩
    · exact fun t ht => ⟨.null, .null, settled_destroySelf out ht.1, objectAt_destroySelf ht.2⟩

/-- The move out of `out` leaves it empty. -/
theorem objectAt_moveConstruct {s : State} {out : ℕ} {ctx : Pointer .jsCtx} {kv : Pointer .kvStore}
    (hout : s.objectAt out = some (.keyValue ctx kv)) :
    (moveConstruct out s).2.objectAt out = some (.keyValue .null .null) := by
  have hnew := objectAt_allocate_of_some
    (w := .keyValue (s.load keyValueCtx out) (s.load keyValueKv out)) hout
  have hctx := objectAt_store_self (p := .null) (m := keyValueCtx) hnew rfl
  exact objectAt_store_self (m := keyValueKv) hctx rfl

theorem contract_returnOut (elided : Bool) (out : ℕ) :
    Contract (OutAt out l) (returnOut elided out) (fun _ => (State.Settled · l))
      (State.Settled · l) := by
  cases elided with
  | true => exact Contract.pure fun _ hs => hs.choose_spec.choose_spec.1
  | false =>
    refine Contract.bind (Q := fun _ => OutAt out l) ?_ fun result => ?_
    · refine Contract.act fun s hs => ?_
      obtain ⟨ctx, kv, hsettled, hout⟩ := hs
      exact ⟨.null, .null, settled_moveConstruct hsettled hout, objectAt_moveConstruct hout⟩
    · exact Contract.bind (Contract.update fun _ hs => hs.destruct) fun _ =>
        Contract.pure fun _ hs => hs

theorem keeps_create (jetStream configInit createKeyValue : Status) (elided : Bool) :
    Keeps l (create texts jetStream configInit createKeyValue elided) := by
  refine Contract.bind (Q := fun out => At out Class.keyValue.empty l) ?_ fun out => ?_
  · exact Contract.act fun s hs => ⟨State.Settled.allocate hs, objectAt_allocate_self⟩
  · refine Contract.bind (Contract.unwinding ?_) fun _ => contract_returnOut elided out
    refine (contract_createBucket texts jetStream configInit createKeyValue out).weaken
      (fun _ hs => hs) (fun _ _ hs => hs) ?_
    exact fun _ hs => hs.destruct

theorem keeps_deleteBucket (jetStream deleteKeyValue : Status) :
    Keeps l (deleteBucket texts jetStream deleteKeyValue) := by
  refine Contract.bind (contract_native .jsCtx jetStream _) fun ctx => ?_
  refine Contract.bind (Q := fun _ => (State.Settled · (ctx.handles ++ l))) ?_ fun _ => ?_
  · refine (contract_check texts _ jetStream _).weaken (fun _ hs => hs) (fun _ _ hs => hs.1.1) ?_
    intro s hs
    obtain ⟨⟨hsettled, hnull⟩, hne⟩ := hs
    rwa [hnull hne] at hsettled
  · refine Contract.bind (Q := fun _ => (State.Settled · (ctx.handles ++ l)))
      (Contract.unwinding ?_) fun _ => Contract.update fun _ hs => hs.destroy
    exact (keeps_check texts deleteKeyValue _).weaken (fun _ hs => hs) (fun _ _ hs => hs)
      fun _ hs => hs.destroy

end KeyValue

end Contracts

end NatsCpp.Handles
