import NatsCpp.BatchResults
import NatsCpp.HandleOwnership
import NatsCpp.PayloadLength

/-!
# Programs over the whole interface

Most functions that return a wrapper make one native call, check its status and
construct the wrapper from the pointer that the call has written. With these
calls, those that return a vector of wrappers, and the steps of the programs
over messages and contexts, a program may use every function of the library
that touches a handle, in any order and with any answers of nats.c.

The strings that a call passes are copied before nats.c is called; where such a
copy throws, nothing has happened yet.
-/
namespace NatsCpp.Handles
open Effect

/-- What nats.c answers to a call that makes a handle. `kvWatcher_Next` also returns `NATS_OK`
without an entry. -/
structure Reply where
  status : Status
  present : Bool := true

/-- The pointer that a native call has written. -/
def State.nativeReply (τ : NativeType) (reply : Reply) (s : State) : Pointer τ × State :=
  if reply.present then s.native τ reply.status else (.null, s)

section Calls

variable (texts : ErrorTexts Unit)

/-- From the native call on. -/
def wrapNative (c : RawClass) (context : String) (reply : Reply) : Effect State Error ℕ := do
  let raw ← act (State.nativeReply c.type reply)
  check texts reply.status context
  act (·.allocate (c.owner.wrap raw))

/-- Throws where a member is null. -/
def checkMember {τ : NativeType} (m : Member τ) (this : ℕ) (what : String) :
    Effect State Error Unit := do
  let p ← act fun s => (s.load m this, s)
  if p = .null then throw (.natsError .invalidArg what) else pure ()

namespace Connection

/-- `request_sync`, with the size of the payload. -/
def requestSync (size : UInt64) (reply : Reply) : Effect State Error ℕ := do
  if size > intMax then
    throw (.invalidArgument "request_sync: payload exceeds INT_MAX bytes")
  wrapNative texts .message "natsConnection_Request" reply

def requestString (reply : Reply) : Effect State Error ℕ :=
  wrapNative texts .message "natsConnection_RequestString" reply

end Connection

/-- `message::create`. -/
def Message.create (reply : Reply) : Effect State Error ℕ :=
  wrapNative texts .message "natsMsg_Create" reply

/-- `header::create`. -/
def Header.create (reply : Reply) : Effect State Error ℕ :=
  wrapNative texts .header "natsHeader_New" reply

def Subscription.nextMessage (initialized : Bool) (reply : Reply) : Effect State Error ℕ := do
  checkValid initialized
  wrapNative texts .message "natsSubscription_NextMsg" reply

def JsPushConsumer.next (this : ℕ) (reply : Reply) : Effect State Error ℕ := do
  checkMember jsPushConsumerSub.toMember this "js_push_consumer: not initialized"
  wrapNative texts .message "natsSubscription_NextMsg" reply

namespace Jetstream

def pullSubscribe (this : ℕ) (reply : Reply) : Effect State Error ℕ := do
  checkValid this
  wrapNative texts .jsPullConsumer "js_PullSubscribe" reply

def pushSubscribe (this : ℕ) (reply : Reply) : Effect State Error ℕ := do
  checkValid this
  wrapNative texts .jsPushConsumer "js_SubscribeSync" reply

def subscribe (this : ℕ) (reply : Reply) : Effect State Error ℕ := do
  checkValid this
  pushSubscribe texts this reply

def getMsg (this : ℕ) (reply : Reply) : Effect State Error ℕ := do
  checkValid this
  wrapNative texts .message "js_GetMsg" reply

def getLastMsg (this : ℕ) (reply : Reply) : Effect State Error ℕ := do
  checkValid this
  wrapNative texts .message "js_GetLastMsg" reply

end Jetstream

namespace KeyValue

def get (this : ℕ) (reply : Reply) : Effect State Error ℕ := do
  checkValid this
  wrapNative texts .kvEntry "kvStore_Get" reply

def getRevision (this : ℕ) (reply : Reply) : Effect State Error ℕ := do
  checkValid this
  wrapNative texts .kvEntry "kvStore_GetRevision" reply

/-- The three functions that make a watcher. -/
def makeWatcher (context : String) (this : ℕ) (options : Option Status) (reply : Reply) :
    Effect State Error ℕ := do
  checkValid this
  toNativeWatchOptions texts options
  wrapNative texts .kvWatcher context reply

def watch : ℕ → Option Status → Reply → Effect State Error ℕ :=
  makeWatcher texts "kvStore_Watch"

def watchMulti : ℕ → Option Status → Reply → Effect State Error ℕ :=
  makeWatcher texts "kvStore_WatchMulti"

def watchAll : ℕ → Option Status → Reply → Effect State Error ℕ :=
  makeWatcher texts "kvStore_WatchAll"

end KeyValue

namespace KvWatcher

def checkValid (this : ℕ) : Effect State Error Unit :=
  checkMember kvWatcherWatcher.toMember this "kv_watcher: not initialized"

def next (this : ℕ) (reply : Reply) : Effect State Error ℕ := do
  checkValid this
  wrapNative texts .kvEntry "kvWatcher_Next" reply

end KvWatcher

/-- The calls that return one wrapper. -/
inductive Call where
  | requestSync (size : UInt64)
  | requestString
  | createMessage
  | createHeader
  | nextMessage (initialized : Bool)
  | nextPull (this : ℕ) (natsTimeout : Status) (shape : Option (List Bool))
  | nextPush (this : ℕ)
  | pullSubscribe (this : ℕ)
  | pushSubscribe (this : ℕ)
  | subscribe (this : ℕ)
  | getMsg (this : ℕ)
  | getLastMsg (this : ℕ)
  | get (this : ℕ)
  | getRevision (this : ℕ)
  | watch (this : ℕ) (options : Option Status)
  | watchMulti (this : ℕ) (options : Option Status)
  | watchAll (this : ℕ) (options : Option Status)
  | nextEntry (this : ℕ)

namespace Call

def run (reply : Reply) : Call → Effect State Error ℕ
  | .requestSync size => Connection.requestSync texts size reply
  | .requestString => Connection.requestString texts reply
  | .createMessage => Message.create texts reply
  | .createHeader => Header.create texts reply
  | .nextMessage initialized => Subscription.nextMessage texts initialized reply
  | .nextPull this natsTimeout shape => JsPullConsumer.next texts natsTimeout this reply.status shape
  | .nextPush this => JsPushConsumer.next texts this reply
  | .pullSubscribe this => Jetstream.pullSubscribe texts this reply
  | .pushSubscribe this => Jetstream.pushSubscribe texts this reply
  | .subscribe this => Jetstream.subscribe texts this reply
  | .getMsg this => Jetstream.getMsg texts this reply
  | .getLastMsg this => Jetstream.getLastMsg texts this reply
  | .get this => KeyValue.get texts this reply
  | .getRevision this => KeyValue.getRevision texts this reply
  | .watch this options => KeyValue.watch texts this options reply
  | .watchMulti this options => KeyValue.watchMulti texts this options reply
  | .watchAll this options => KeyValue.watchAll texts this options reply
  | .nextEntry this => KvWatcher.next texts this reply

/-- The object on which the call is made, if it is one of this memory, and its class. -/
def receiver : Call → Option (ℕ × Class)
  | .requestSync _ | .requestString | .createMessage | .createHeader | .nextMessage _ => none
  | .nextPull this _ _ => some (this, .jsPullConsumer)
  | .nextPush this => some (this, .jsPushConsumer)
  | .pullSubscribe this | .pushSubscribe this | .subscribe this | .getMsg this
  | .getLastMsg this => some (this, .jetstream)
  | .get this | .getRevision this | .watch this _ | .watchMulti this _ | .watchAll this _ =>
    some (this, .keyValue)
  | .nextEntry this => some (this, .kvWatcher)

end Call

def BatchCall.receiver : BatchCall → Option (ℕ × Class)
  | .fetch _ | .fetchRequest _ => none
  | .history this _ => some (this, .keyValue)

namespace State

variable (s : State)

/-- The receiver of a call is alive. -/
def hasReceiver (receiver : Option (ℕ × Class)) : Bool :=
  receiver.all fun (x, c) => s.isA x c

/-- The wrappers of a vector are put under the block that will destruct it. -/
def enrollAll (storage : Storage) (out : List ℕ) : State :=
  out.foldl (fun s x => s.enroll x storage) s

end State

/-- Only a vector that has been returned is put under a block. -/
def enrolledAll (storage : Storage) : Except Failure (List ℕ) × State → State
  | (.ok out, s) => s.enrollAll storage out
  | (.error _, s) => s

/-- A step of a program over messages and contexts, or a call that returns wrappers. -/
inductive ApiAction where
  | core (a : Action)
  | call (c : Call) (reply : Reply) (storage : Storage)
  | batch (c : BatchCall) (supply : Supply) (storage : Storage)

def apiStep (s : State) : ApiAction → Option State
  | .core a => step texts s a
  | .call c reply storage =>
    if s.admits storage ∧ s.hasReceiver c.receiver then
      some (enrolled storage ((c.run texts reply).outcome s))
    else
      none
  | .batch c supply storage =>
    if s.admits storage ∧ s.hasReceiver c.receiver then
      some (enrolledAll storage ((c.run texts supply).outcome s))
    else
      none

def apiMachine : Machine State ApiAction := ⟨{}, apiStep texts⟩

end Calls

/-! ## The calls and the handles in flight -/

section Keeps

variable (texts : ErrorTexts Unit) {l : List Handle}

/-- A call that fails has written no handle. -/
theorem contract_nativeReply (τ : NativeType) (reply : Reply) (E : State → Prop) :
    Contract (State.Settled · l)
      (act (State.nativeReply τ reply) : Effect State Error (Pointer τ))
      (fun p s => s.Settled (p.handles ++ l) ∧ (reply.status ≠ .ok → p = .null)) E := by
  obtain ⟨status, present⟩ := reply
  cases present with
  | true => exact contract_native τ status E
  | false => exact Contract.act fun _ hs => ⟨hs, fun _ => rfl⟩

theorem keeps_wrapNative (c : RawClass) (context : String) (reply : Reply) :
    Keeps l (wrapNative texts c context reply) := by
  refine Contract.bind (contract_nativeReply c.type reply _) fun raw => ?_
  refine Contract.bind (Q := fun _ => (State.Settled · (raw.handles ++ l))) ?_ fun _ => ?_
  · refine (contract_check texts _ reply.status context).weaken (fun _ hs => hs)
      (fun _ _ hs => hs.1.1) ?_
    intro s hs
    obtain ⟨⟨hsettled, hnull⟩, hne⟩ := hs
    rwa [hnull hne] at hsettled
  · refine Contract.act fun s hs => State.Settled.allocate ?_
    rwa [c.owner.handles_wrap]

theorem keeps_checkMember {τ : NativeType} (m : Member τ) (this : ℕ) (what : String) :
    Keeps l (checkMember m this what) := by
  refine Contract.bind (Q := fun _ => (State.Settled · l)) (Contract.act fun _ hs => hs)
    fun p => ?_
  by_cases hp : p = .null
  · rw [if_pos hp]
    exact Contract.throw fun _ hs => hs
  · rw [if_neg hp]
    exact Contract.pure fun _ hs => hs

theorem Keeps.andThen {α : Type} {p : Effect State Error Unit} {q : Effect State Error α}
    (hp : Keeps l p) (hq : Keeps l q) : Keeps l (do p; q) :=
  Contract.bind hp fun _ => hq

theorem KeyValue.keeps_checkValid (this : ℕ) : Keeps l (KeyValue.checkValid this) :=
  keeps_checkMember keyValueKv this _

theorem KeyValue.keeps_toNativeWatchOptions (options : Option Status) :
    Keeps l (toNativeWatchOptions texts options) := by
  cases options with
  | none => exact Contract.pure fun _ hs => hs
  | some status => exact keeps_check texts status _

theorem KeyValue.keeps_makeWatcher (context : String) (this : ℕ) (options : Option Status)
    (reply : Reply) : Keeps l (makeWatcher texts context this options reply) :=
  (keeps_checkValid this).andThen
    ((keeps_toNativeWatchOptions texts options).andThen (keeps_wrapNative texts _ _ reply))

theorem Connection.keeps_requestSync (size : UInt64) (reply : Reply) :
    Keeps l (requestSync texts size reply) := by
  by_cases hsize : size > intMax
  · rw [requestSync, if_pos hsize]
    exact Contract.throw fun _ hs => hs
  · rw [requestSync, if_neg hsize]
    exact keeps_wrapNative texts .message _ reply

theorem Subscription.keeps_nextMessage (initialized : Bool) (reply : Reply) :
    Keeps l (nextMessage texts initialized reply) := by
  cases initialized with
  | true => exact keeps_wrapNative texts .message _ reply
  | false => exact Contract.throw fun _ hs => hs

theorem Call.keeps_run (c : Call) (reply : Reply) : Keeps l (c.run texts reply) := by
  have hwrap (c : RawClass) (context : String) := keeps_wrapNative (l := l) texts c context reply
  cases c with
  | requestSync size => exact Connection.keeps_requestSync texts size reply
  | requestString => exact hwrap .message _
  | createMessage => exact hwrap .message _
  | createHeader => exact hwrap .header _
  | nextMessage initialized => exact Subscription.keeps_nextMessage texts initialized reply
  | nextPull this natsTimeout shape => exact JsPullConsumer.keeps_next texts natsTimeout this _ shape
  | nextPush this => exact (keeps_checkMember _ this _).andThen (hwrap .message _)
  | pullSubscribe this => exact (Jetstream.keeps_checkValid this).andThen (hwrap .jsPullConsumer _)
  | pushSubscribe this => exact (Jetstream.keeps_checkValid this).andThen (hwrap .jsPushConsumer _)
  | subscribe this =>
    have hpush := (Jetstream.keeps_checkValid this).andThen (hwrap .jsPushConsumer "js_SubscribeSync")
    exact (Jetstream.keeps_checkValid this).andThen hpush
  | getMsg this => exact (Jetstream.keeps_checkValid this).andThen (hwrap .message _)
  | getLastMsg this => exact (Jetstream.keeps_checkValid this).andThen (hwrap .message _)
  | get this => exact (KeyValue.keeps_checkValid this).andThen (hwrap .kvEntry _)
  | getRevision this => exact (KeyValue.keeps_checkValid this).andThen (hwrap .kvEntry _)
  | watch this options | watchMulti this options | watchAll this options =>
    exact KeyValue.keeps_makeWatcher texts _ this options reply
  | nextEntry this => exact (keeps_checkMember _ this _).andThen (hwrap .kvEntry _)

end Keeps

/-! ## Sound states -/

namespace State

variable (s : State)

/-- Wrappers, the user and the log of destroyed handles share the native objects among them. -/
structure Sound : Prop where
  /-- No wrapper has a pointer to nothing, to a destroyed object or to one of the user's. -/
  live : ∀ {x h}, s.Owns x h → s.Created h ∧ h ∉ s.destroyed ∧ h ∉ s.user
  unique : ∀ {x y h}, s.Owns x h → s.Owns y h → x = y
  /-- What the user has taken over has not been destroyed behind his back. -/
  held : ∀ {h}, h ∈ s.user → s.Created h ∧ h ∉ s.destroyed
  once : s.destroyed.Nodup
  destroyed : ∀ {h}, h ∈ s.destroyed → s.Created h
  covered : ∀ {h}, s.Created h → h ∈ s.user ∨ (∃ x, s.Owns x h) ∨ h ∈ s.destroyed

theorem births_le (h : Handle) : s.births h ≤ 1 := by
  unfold births
  split <;> omega

theorem created_of_births {h : Handle} (hb : 0 < s.births h) : s.Created h := by
  by_contra hcreated
  have hzero : s.births h = 0 := if_neg hcreated
  omega

end State

theorem State.Settled.sound {s : State} (hs : s.Settled []) : s.Sound := by
  have hplaces (h : Handle) :
      s.owned.count h + s.user.count h + s.destroyed.count h = s.births h := hs h
  have hle := s.births_le
  refine ⟨fun {x h} hx => ?_, fun {x y h} hx hy => ?_, fun {h} hmem => ?_, ?_, fun {h} hmem => ?_,
    fun {h} hcreated => ?_⟩
  · have hpos := hx.count_pos
    have hplace := hplaces h
    have hbirth := hle h
    refine ⟨s.created_of_births (by omega), ?_, ?_⟩
    · exact List.count_eq_zero.mp (by omega)
    · exact List.count_eq_zero.mp (by omega)
  · have hpos := hx.count_pos
    have hplace := hplaces h
    have hbirth := hle h
    exact owns_unique (by omega) hx hy
  · have hpos := List.count_pos_iff.mpr hmem
    have hplace := hplaces h
    have hbirth := hle h
    exact ⟨s.created_of_births (by omega), List.count_eq_zero.mp (by omega)⟩
  · rw [List.nodup_iff_count_le_one]
    intro h
    have hplace := hplaces h
    have hbirth := hle h
    omega
  · have hpos := List.count_pos_iff.mpr hmem
    have hplace := hplaces h
    exact s.created_of_births (by omega)
  · have hplace := hplaces h
    have hbirth : s.births h = 1 := if_pos hcreated
    by_cases howned : 0 < s.owned.count h
    · exact .inr (.inl (owns_of_count howned))
    · by_cases huser : 0 < s.user.count h
      · exact .inl (List.count_pos_iff.mp huser)
      · exact .inr (.inr (List.count_pos_iff.mp (by omega)))

/-! ## Programs -/

theorem objects_enrollAll (s : State) (storage : Storage) (out : List ℕ) :
    ∃ blocks, s.enrollAll storage out = { s with blocks := blocks } := by
  induction out generalizing s with
  | nil => exact ⟨s.blocks, rfl⟩
  | cons x out ih =>
    obtain ⟨blocks, hblocks⟩ := ih (s.enroll x storage)
    refine ⟨blocks, ?_⟩
    rw [State.enrollAll, List.foldl_cons]
    rw [State.enrollAll] at hblocks
    rw [hblocks]
    cases storage <;> rfl

theorem settled_enrolledAll (storage : Storage) (r : Except Failure (List ℕ) × State)
    {l : List Handle} (hr : r.2.Settled l) : (enrolledAll storage r).Settled l := by
  obtain ⟨r, t⟩ := r
  cases r with
  | error e => exact hr
  | ok out =>
    obtain ⟨blocks, hblocks⟩ := objects_enrollAll t storage out
    rw [enrolledAll, hblocks]
    exact hr

section Runs

variable (texts : ErrorTexts Unit) {s t : State}

theorem settled_apiStep {a : ApiAction} (hs : s.Settled []) (ht : apiStep texts s a = some t) :
    t.Settled [] := by
  cases a with
  | core a => exact settled_step texts hs ht
  | call c reply storage =>
    simp only [apiStep, Option.ite_none_right_eq_some, Option.some.injEq] at ht
    rw [← ht.2]
    exact settled_enrolled storage _ (settled_outcome (c.keeps_run texts reply) hs)
  | batch c supply storage =>
    simp only [apiStep, Option.ite_none_right_eq_some, Option.some.injEq] at ht
    rw [← ht.2]
    refine settled_enrolledAll storage _ ?_
    have hcontract := c.contract texts supply s hs
    generalize (c.run texts supply).outcome s = o at hcontract
    obtain ⟨r, u⟩ := o
    cases r <;> exact hcontract

theorem api_invariant : (apiMachine texts).Invariant Machine.Free (State.Settled · []) where
  init := fun _ => rfl
  step := fun hs _ ht => settled_apiStep texts hs ht

/-- In no state of any program is a pointer left to a destroyed native object, is an object owned
twice, or destroyed twice, or lost. -/
theorem sound_throughout (program : List ApiAction) :
    (apiMachine texts).Throughout State.Sound (apiMachine texts).init program :=
  ((api_invariant texts).throughout (api_invariant texts).init program).mono
    fun _ hs => hs.sound

/-! ## The end of a program -/

namespace State

/-- The native objects in the order of their creation. -/
def created (s : State) : List Handle := s.types.mapIdx fun address τ => ⟨τ, address⟩

theorem mem_created {h : Handle} : h ∈ s.created ↔ s.Created h := by
  rw [created, List.mem_mapIdx, Created, List.getElem?_eq_some_iff]
  constructor
  · rintro ⟨i, hi, rfl⟩
    exact ⟨hi, rfl⟩
  · rintro ⟨hi, htype⟩
    exact ⟨h.address, hi, by rw [htype]⟩

theorem nodup_created (s : State) : s.created.Nodup := by
  refine List.Nodup.of_map Handle.address ?_
  have haddresses : s.created.map Handle.address = List.range s.types.length := by
    refine List.ext_getElem (by simp [created]) fun i hi hi' => ?_
    simp [created]
  rw [haddresses]
  exact List.nodup_range

end State

/-- When the objects of a program are gone and the user holds nothing, every native object that was
ever created has been destroyed, each of them once. -/
theorem destroyed_perm_created {program : List ApiAction} {s : State}
    (hrun : (apiMachine texts).run (apiMachine texts).init program = some s)
    (hobjects : ∀ x, s.objectAt x = none) (huser : s.user = []) :
    s.destroyed.Perm s.created := by
  have hsound := ((api_invariant texts).run (api_invariant texts).init hrun).sound
  rw [List.perm_ext_iff_of_nodup hsound.once s.nodup_created]
  intro h
  rw [State.mem_created]
  constructor
  · exact hsound.destroyed
  · intro hcreated
    obtain hmem | ⟨x, w, hw, -⟩ | hmem := hsound.covered hcreated
    · rw [huser] at hmem
      exact absurd hmem List.not_mem_nil
    · rw [hobjects x] at hw
      exact absurd hw (by simp)
    · exact hmem

/-- A handler's block with a vector of three messages, one of them null, and with a header that the
user has handed over; a call that times out adds nothing. -/
def blockProgram : List ApiAction :=
  [.core .openBlock, .core (.make .natsHeader),
    .batch (.fetch true) ⟨.ok, some [true, false, true], true⟩ (.automatic 0),
    .core (.construct (.adopt .header (.addr 0)) (.automatic 0)),
    .call (.nextMessage true) ⟨.other 26, true⟩ (.automatic 0), .core (.closeBlock 0)]

theorem destroyed_perm_created_block :
    let s : State := ⟨[.natsHeader, .natsMsg, .natsMsg],
      [⟨.natsHeader, 0⟩, ⟨.natsMsg, 2⟩, ⟨.natsMsg, 1⟩], [], [none, none, none, none], [none],
      []⟩
    (apiMachine ⟨fun _ => none, fun _ => none⟩).run {} blockProgram = some s ∧
      s.destroyed.Perm s.created := by
  intro s
  have hrun : (apiMachine ⟨fun _ => none, fun _ => none⟩).run {} blockProgram = some s := rfl
  refine ⟨hrun, destroyed_perm_created _ hrun (fun x => ?_) rfl⟩
  match x with
  | 0 | 1 | 2 | 3 | _ + 4 => rfl

end Runs

end NatsCpp.Handles
