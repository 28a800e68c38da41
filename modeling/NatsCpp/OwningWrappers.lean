import NatsCpp.Contracts
import NatsCpp.Errors
import NatsCpp.NativeHandles

/-!
# The owning wrapper classes

`message` and `header` own their handle through a `std::unique_ptr`; the other
classes write their moves and destructors themselves, and `key_value` owns two
handles. Objects are passed by their address, so that an assignment to itself
is one that gets the same address twice.
-/
namespace NatsCpp.Handles

/-! ## Classes and members -/

/-- `message::msg_`. -/
def messageMsg : Owner .natsMsg :=
  .of .message (fun | .message p => some p | _ => none) (by rintro ⟨⟩ p <;> simp) fun _ => rfl

/-- `header::header_`. -/
def headerHeader : Owner .natsHeader :=
  .of .header (fun | .header p => some p | _ => none) (by rintro ⟨⟩ p <;> simp) fun _ => rfl

/-- `kv_entry::entry_`. -/
def kvEntryEntry : Owner .kvEntry :=
  .of .kvEntry (fun | .kvEntry p => some p | _ => none) (by rintro ⟨⟩ p <;> simp) fun _ => rfl

/-- `kv_watcher::watcher_`. -/
def kvWatcherWatcher : Owner .kvWatcher :=
  .of .kvWatcher (fun | .kvWatcher p => some p | _ => none) (by rintro ⟨⟩ p <;> simp) fun _ => rfl

/-- `jetstream::ctx_`. -/
def jetstreamCtx : Owner .jsCtx :=
  .of .jetstream (fun | .jetstream p => some p | _ => none) (by rintro ⟨⟩ p <;> simp) fun _ => rfl

/-- `js_pull_consumer::sub_`. -/
def jsPullConsumerSub : Owner .natsSubscription :=
  .of .jsPullConsumer (fun | .jsPullConsumer p => some p | _ => none) (by rintro ⟨⟩ p <;> simp)
    fun _ => rfl

/-- `js_push_consumer::sub_`. -/
def jsPushConsumerSub : Owner .natsSubscription :=
  .of .jsPushConsumer (fun | .jsPushConsumer p => some p | _ => none) (by rintro ⟨⟩ p <;> simp)
    fun _ => rfl

/-- `key_value::ctx_`. -/
def keyValueCtx : Member .jsCtx where
  get := fun | .keyValue ctx _ => some ctx | _ => none
  set := fun p w => match w with | .keyValue _ kv => .keyValue p kv | _ => w
  get_set := by
    rintro ⟨⟩ q p ⟨⟩
    rfl
  exchange := by
    rintro ⟨⟩ q p h ⟨⟩
    simp only [Wrapper.handles, List.count_append]
    omega

/-- `key_value::kv_`. -/
def keyValueKv : Member .kvStore where
  get := fun | .keyValue _ kv => some kv | _ => none
  set := fun p w => match w with | .keyValue ctx _ => .keyValue ctx p | _ => w
  get_set := by
    rintro ⟨⟩ q p ⟨⟩
    rfl
  exchange := by
    rintro ⟨⟩ q p h ⟨⟩
    simp only [Wrapper.handles, List.count_append]
    omega

/-! ## Member functions -/

namespace Member

variable {τ : NativeType} (m : Member τ)

/-- `unique_ptr::release`. -/
def release (x : ℕ) (s : State) : Pointer τ × State := (s.load m x, s.store m x .null)

/-- `unique_ptr::reset`: the new pointer is in place when the old handle is destroyed. -/
def reset (x : ℕ) (p : Pointer τ) (s : State) : State :=
  let old := s.load m x
  (s.store m x p).destroy old

/-- The move assignment of a class with a `unique_ptr`: `reset(other.release())`. -/
def uniqueMoveAssign (x other : ℕ) (s : State) : State :=
  let (p, s) := m.release other s
  m.reset x p s

/-- The move assignment that the classes with a plain pointer write. -/
def moveAssign (x other : ℕ) (s : State) : State :=
  if x ≠ other then
    let s := s.destroy (s.load m x)
    let s := s.store m x (s.load m other)
    s.store m other .null
  else
    s

end Member

namespace Owner

variable {τ : NativeType} (c : Owner τ)

/-- The move constructor of a class with a `unique_ptr`. -/
def uniqueMoveConstruct (other : ℕ) (s : State) : ℕ × State :=
  let (p, s) := c.release other s
  s.allocate (c.wrap p)

/-- The move constructor that the classes with a plain pointer write. -/
def moveConstruct (other : ℕ) (s : State) : ℕ × State :=
  let (x, s) := s.allocate (c.wrap (s.load c.toMember other))
  (x, s.store c.toMember other .null)

/-- The destructor. -/
def destruct (x : ℕ) (s : State) : State :=
  (s.destroy (s.load c.toMember x)).forget x

end Owner

section OnePointer

variable {s : State} {l : List Handle} {x other : ℕ} {w w' : Wrapper} {τ : NativeType}
  {m : Member τ} {p q : Pointer τ}

theorem settled_release (m : Member τ) (x : ℕ) (hs : s.Settled l) :
    (m.release x s).2.Settled ((m.release x s).1.handles ++ l) :=
  hs.storeNull

theorem settled_reset (hs : s.Settled (p.handles ++ l)) (hw : s.objectAt x = some w)
    (hq : m.get w = some q) : (m.reset x p s).Settled l := by
  have hstore := hs.store hw hq
  rw [← load_of_get hw hq] at hstore
  exact hstore.destroy

theorem settled_uniqueMoveAssign (hs : s.Settled l) (hw : s.objectAt x = some w)
    (hq : m.get w = some q) : (m.uniqueMoveAssign x other s).Settled l := by
  have hrelease := settled_release m other hs
  by_cases hx : other = x
  · -- `this` is the source, whose pointer is null when it is put back
    subst hx
    have hobject : (m.release other s).2.objectAt other = some (m.set .null w) :=
      objectAt_store_self hw hq
    exact settled_reset hrelease hobject (m.get_set .null hq)
  · have hobject : (m.release other s).2.objectAt x = some w := by
      rw [← hw]
      exact objectAt_store_ne hx
    exact settled_reset hrelease hobject hq

theorem settled_moveAssign (hs : s.Settled l) (hw : s.objectAt x = some w)
    (hq : m.get w = some q) : (m.moveAssign x other s).Settled l := by
  by_cases hx : x = other
  · rw [Member.moveAssign, if_neg (not_not_intro hx)]
    exact hs
  · rw [Member.moveAssign, if_pos hx]
    intro h
    have hbefore := hs h
    have hdestroy := places_destroy s (s.load m x) h
    have hstore := places_store (s := s.destroy (s.load m x)) (m := m) hw hq (s.load m other) h
    have hnull := places_storeNull m ((s.destroy (s.load m x)).store m x (s.load m other)) other h
    rw [load_store_ne m hx, load_destroy] at hnull
    rw [load_of_get hw hq] at *
    simp only [load_destroy, births_store, births_destroy]
    omega

/-- The handle of a member is destroyed, and the member is null. -/
theorem settled_clear (m : Member τ) (x : ℕ) (hs : s.Settled l) :
    ((s.destroy (s.load m x)).store m x .null).Settled l := by
  intro h
  have hbefore := hs h
  have hdestroy := places_destroy s (s.load m x) h
  have hnull := places_storeNull m (s.destroy (s.load m x)) x h
  rw [load_destroy] at hnull
  rw [births_store, births_destroy]
  omega

theorem objectAt_clear (hw : s.objectAt x = some w) (hq : m.get w = some q) :
    ((s.destroy (s.load m x)).store m x .null).objectAt x = some (m.set .null w) :=
  objectAt_store_self (s := s.destroy (s.load m x)) hw hq

theorem settled_uniqueMoveConstruct (c : Owner τ) (other : ℕ) (hs : s.Settled l) :
    (c.uniqueMoveConstruct other s).2.Settled l := by
  refine State.Settled.allocate ?_
  rw [c.handles_wrap]
  exact settled_release c.toMember other hs

theorem settled_moveConstruct (c : Owner τ) (hs : s.Settled l) (hw : s.objectAt other = some w) :
    (c.moveConstruct other s).2.Settled l := by
  intro h
  have hbefore := hs h
  have hnew := places_allocate s (c.wrap (s.load c.toMember other)) h
  have hnull := places_storeNull c.toMember
    (s.allocate (c.wrap (s.load c.toMember other))).2 other h
  rw [c.handles_wrap] at hnew
  rw [load_allocate_of_some hw] at hnull
  simp only [Owner.moveConstruct, births_store, births_allocate]
  omega

/-- The destructor destroys the pointer of the object. -/
theorem settled_destruct (c : Owner τ) (hs : s.Settled l) (hw : s.objectAt x = some (c.wrap p))
    (hp : c.get (c.wrap p) = some p) : (c.destruct x s).Settled l := by
  have hforget := hs.forget hw
  rw [c.handles_wrap] at hforget
  rw [Owner.destruct, load_of_get hw hp]
  exact hforget.destroy

end OnePointer

namespace KeyValue

def destroySelf (x : ℕ) (s : State) : State :=
  let s := s.destroy (s.load keyValueKv x)
  let s := s.store keyValueKv x .null
  let s := s.destroy (s.load keyValueCtx x)
  s.store keyValueCtx x .null

def moveConstruct (other : ℕ) (s : State) : ℕ × State :=
  let (x, s) := s.allocate (.keyValue (s.load keyValueCtx other) (s.load keyValueKv other))
  let s := s.store keyValueCtx other .null
  (x, s.store keyValueKv other .null)

def moveAssign (x other : ℕ) (s : State) : State :=
  if x ≠ other then
    let s := destroySelf x s
    let s := s.store keyValueCtx x (s.load keyValueCtx other)
    let s := s.store keyValueKv x (s.load keyValueKv other)
    let s := s.store keyValueCtx other .null
    s.store keyValueKv other .null
  else
    s

def destruct (x : ℕ) (s : State) : State := (destroySelf x s).forget x

variable {s : State} {l : List Handle} {x other : ℕ} {ctx ctx' : Pointer .jsCtx}
  {kv kv' : Pointer .kvStore}

theorem settled_destroySelf (x : ℕ) (hs : s.Settled l) : (destroySelf x s).Settled l :=
  settled_clear keyValueCtx x (settled_clear keyValueKv x hs)

/-- After `destroy_self` both members are null. -/
theorem objectAt_destroySelf (hw : s.objectAt x = some (.keyValue ctx kv)) :
    (destroySelf x s).objectAt x = some (.keyValue .null .null) := by
  have hkv := objectAt_clear (m := keyValueKv) hw rfl
  exact objectAt_clear (m := keyValueCtx) hkv rfl

theorem objectAt_destroySelf_ne (hx : x ≠ other) :
    (destroySelf x s).objectAt other = s.objectAt other := by
  simp only [destroySelf, objectAt_store_ne hx, objectAt_destroy]

theorem settled_destruct (hs : s.Settled l) (hw : s.objectAt x = some (.keyValue ctx kv)) :
    (destruct x s).Settled l :=
  (settled_destroySelf x hs).forget (objectAt_destroySelf hw)

/-- Both pointers are taken out of the source of a move. -/
theorem places_take (hw : s.objectAt other = some (.keyValue ctx kv)) (h : Handle) :
    ((s.store keyValueCtx other .null).store keyValueKv other .null).places h +
      (ctx.handles.count h + kv.handles.count h) = s.places h := by
  have hctx : (s.store keyValueCtx other .null).objectAt other = some (.keyValue .null kv) :=
    objectAt_store_self (m := keyValueCtx) hw rfl
  have hfirst := places_store (m := keyValueCtx) (q := ctx) hw rfl .null h
  have hsecond := places_store (m := keyValueKv) (q := kv) hctx rfl .null h
  simp only [Pointer.handles_null, List.count_nil] at hfirst hsecond
  omega

theorem settled_moveConstruct (hs : s.Settled l)
    (hw : s.objectAt other = some (.keyValue ctx kv)) : (moveConstruct other s).2.Settled l := by
  intro h
  have hbefore := hs h
  have hctx : s.load keyValueCtx other = ctx := load_of_get hw rfl
  have hkv : s.load keyValueKv other = kv := load_of_get hw rfl
  have hnew := places_allocate s (.keyValue ctx kv) h
  have htake := places_take (objectAt_allocate_of_some (w := .keyValue ctx kv) hw) h
  simp only [Wrapper.handles, List.count_append] at hnew
  simp only [moveConstruct, hctx, hkv, births_store, births_allocate]
  omega

theorem settled_moveAssign (hs : s.Settled l) (hw : s.objectAt x = some (.keyValue ctx kv))
    (hw' : s.objectAt other = some (.keyValue ctx' kv')) : (moveAssign x other s).Settled l := by
  by_cases hx : x = other
  · rw [moveAssign, if_neg (not_not_intro hx)]
    exact hs
  · rw [moveAssign, if_pos hx]
    intro h
    -- the handles of `this` are gone, and then its members take over those of the source
    have hbefore := settled_destroySelf x hs h
    have hthis := objectAt_destroySelf hw
    have hsource : (destroySelf x s).objectAt other = some (.keyValue ctx' kv') := by
      rw [objectAt_destroySelf_ne hx, hw']
    generalize destroySelf x s = t at hbefore hthis hsource
    have hctx : t.load keyValueCtx other = ctx' := load_of_get hsource rfl
    have hkv : (t.store keyValueCtx x ctx').load keyValueKv other = kv' := by
      rw [load_store_ne keyValueKv hx]
      exact load_of_get hsource rfl
    have hthis' : (t.store keyValueCtx x ctx').objectAt x = some (.keyValue ctx' .null) :=
      objectAt_store_self (m := keyValueCtx) hthis rfl
    have hfirst := places_store (m := keyValueCtx) (q := .null) hthis rfl ctx' h
    have hsecond := places_store (m := keyValueKv) (q := .null) hthis' rfl kv' h
    have hsource' : ((t.store keyValueCtx x ctx').store keyValueKv x kv').objectAt other =
        some (.keyValue ctx' kv') := by
      rw [objectAt_store_ne hx, objectAt_store_ne hx, hsource]
    have htake := places_take hsource' h
    simp only [Pointer.handles_null, List.count_nil] at hfirst hsecond
    simp only [hctx, hkv, births_store]
    omega

end KeyValue

/-- The classes of the objects. -/
inductive Class where
  | message
  | header
  | kvEntry
  | kvWatcher
  | keyValue
  | jetstream
  | jsPullConsumer
  | jsPushConsumer
  deriving DecidableEq

namespace Class

/-- The default constructor. -/
def empty : Class → Wrapper
  | .message => .message .null
  | .header => .header .null
  | .kvEntry => .kvEntry .null
  | .kvWatcher => .kvWatcher .null
  | .keyValue => .keyValue .null .null
  | .jetstream => .jetstream .null
  | .jsPullConsumer => .jsPullConsumer .null
  | .jsPushConsumer => .jsPushConsumer .null

def moveConstruct : Class → ℕ → State → ℕ × State
  | .message => messageMsg.uniqueMoveConstruct
  | .header => headerHeader.uniqueMoveConstruct
  | .kvEntry => kvEntryEntry.moveConstruct
  | .kvWatcher => kvWatcherWatcher.moveConstruct
  | .keyValue => KeyValue.moveConstruct
  | .jetstream => jetstreamCtx.moveConstruct
  | .jsPullConsumer => jsPullConsumerSub.moveConstruct
  | .jsPushConsumer => jsPushConsumerSub.moveConstruct

def moveAssign : Class → ℕ → ℕ → State → State
  | .message => messageMsg.uniqueMoveAssign
  | .header => headerHeader.uniqueMoveAssign
  | .kvEntry => kvEntryEntry.moveAssign
  | .kvWatcher => kvWatcherWatcher.moveAssign
  | .keyValue => KeyValue.moveAssign
  | .jetstream => jetstreamCtx.moveAssign
  | .jsPullConsumer => jsPullConsumerSub.moveAssign
  | .jsPushConsumer => jsPushConsumerSub.moveAssign

def destruct : Class → ℕ → State → State
  | .message => messageMsg.destruct
  | .header => headerHeader.destruct
  | .kvEntry => kvEntryEntry.destruct
  | .kvWatcher => kvWatcherWatcher.destruct
  | .keyValue => KeyValue.destruct
  | .jetstream => jetstreamCtx.destruct
  | .jsPullConsumer => jsPullConsumerSub.destruct
  | .jsPushConsumer => jsPushConsumerSub.destruct

end Class

def Wrapper.cls : Wrapper → Class
  | .message _ => .message
  | .header _ => .header
  | .kvEntry _ => .kvEntry
  | .kvWatcher _ => .kvWatcher
  | .keyValue _ _ => .keyValue
  | .jetstream _ => .jetstream
  | .jsPullConsumer _ => .jsPullConsumer
  | .jsPushConsumer _ => .jsPushConsumer

/-- The destructor of the object at an address. -/
def destruct (x : ℕ) (s : State) : State :=
  match s.objectAt x with
  | some w => w.cls.destruct x s
  | none => s

section Classes

variable {s : State} {l : List Handle} {x other : ℕ} {w w' : Wrapper}

theorem handles_empty (c : Class) : c.empty.handles = [] := by
  cases c <;> rfl

theorem Class.settled_moveConstruct (hs : s.Settled l) (hw : s.objectAt other = some w) :
    (w.cls.moveConstruct other s).2.Settled l := by
  cases w with
  | message p => exact settled_uniqueMoveConstruct messageMsg other hs
  | header p => exact settled_uniqueMoveConstruct headerHeader other hs
  | kvEntry p => exact Handles.settled_moveConstruct kvEntryEntry hs hw
  | kvWatcher p => exact Handles.settled_moveConstruct kvWatcherWatcher hs hw
  | keyValue ctx kv => exact KeyValue.settled_moveConstruct hs hw
  | jetstream p => exact Handles.settled_moveConstruct jetstreamCtx hs hw
  | jsPullConsumer p => exact Handles.settled_moveConstruct jsPullConsumerSub hs hw
  | jsPushConsumer p => exact Handles.settled_moveConstruct jsPushConsumerSub hs hw

theorem Class.settled_moveAssign (hs : s.Settled l) (hw : s.objectAt x = some w)
    (hw' : s.objectAt other = some w') (hcls : w.cls = w'.cls) :
    (w.cls.moveAssign x other s).Settled l := by
  cases w with
  | message p => exact settled_uniqueMoveAssign (m := messageMsg.toMember) hs hw rfl
  | header p => exact settled_uniqueMoveAssign (m := headerHeader.toMember) hs hw rfl
  | kvEntry p => exact Handles.settled_moveAssign (m := kvEntryEntry.toMember) hs hw rfl
  | kvWatcher p => exact Handles.settled_moveAssign (m := kvWatcherWatcher.toMember) hs hw rfl
  | keyValue ctx kv =>
    cases w' with
    | keyValue ctx' kv' => exact KeyValue.settled_moveAssign hs hw hw'
    | _ => exact absurd hcls (by simp [Wrapper.cls])
  | jetstream p => exact Handles.settled_moveAssign (m := jetstreamCtx.toMember) hs hw rfl
  | jsPullConsumer p =>
    exact Handles.settled_moveAssign (m := jsPullConsumerSub.toMember) hs hw rfl
  | jsPushConsumer p =>
    exact Handles.settled_moveAssign (m := jsPushConsumerSub.toMember) hs hw rfl

/-- A destructor takes the object out of memory and destroys what it owned. -/
theorem Class.settled_destruct (hs : s.Settled l) (hw : s.objectAt x = some w) :
    (w.cls.destruct x s).Settled l := by
  cases w with
  | message p => exact Handles.settled_destruct messageMsg hs hw rfl
  | header p => exact Handles.settled_destruct headerHeader hs hw rfl
  | kvEntry p => exact Handles.settled_destruct kvEntryEntry hs hw rfl
  | kvWatcher p => exact Handles.settled_destruct kvWatcherWatcher hs hw rfl
  | keyValue ctx kv => exact KeyValue.settled_destruct hs hw
  | jetstream p => exact Handles.settled_destruct jetstreamCtx hs hw rfl
  | jsPullConsumer p => exact Handles.settled_destruct jsPullConsumerSub hs hw rfl
  | jsPushConsumer p => exact Handles.settled_destruct jsPushConsumerSub hs hw rfl

theorem State.Settled.destruct (hs : s.Settled l) (x : ℕ) : (destruct x s).Settled l := by
  cases hw : s.objectAt x with
  | none => simpa only [Handles.destruct, hw] using hs
  | some w => simpa only [Handles.destruct, hw] using Class.settled_destruct hs hw

end Classes

end NatsCpp.Handles
