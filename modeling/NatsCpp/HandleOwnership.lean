import NatsCpp.Machine
import NatsCpp.OwningCalls

/-!
# Programs over the owning wrappers

A program is a list of actions; every step of every thread is one of them. An
automatic object is destructed where its block is left, whether the block ends
or an exception leaves it. A delivery opens the block of the handler, with the
argument of the handler as its first automatic object, so that a handler may do
whatever a program may, and may throw anywhere.
-/
namespace NatsCpp.Handles
open Effect

/-- The classes with a constructor from a raw pointer. -/
inductive RawClass where
  | message
  | header
  | kvEntry
  | kvWatcher
  | jsPullConsumer
  | jsPushConsumer
  deriving DecidableEq

namespace RawClass

def type : RawClass → NativeType
  | .message => .natsMsg
  | .header => .natsHeader
  | .kvEntry => .kvEntry
  | .kvWatcher => .kvWatcher
  | .jsPullConsumer => .natsSubscription
  | .jsPushConsumer => .natsSubscription

def owner : (c : RawClass) → Owner c.type
  | .message => messageMsg
  | .header => headerHeader
  | .kvEntry => kvEntryEntry
  | .kvWatcher => kvWatcherWatcher
  | .jsPullConsumer => jsPullConsumerSub
  | .jsPushConsumer => jsPushConsumerSub

end RawClass

/-- An object with dynamic storage lives until it is deleted, also after the handler that made
it has returned. -/
inductive Storage where
  | automatic (block : ℕ)
  | dynamic
  deriving DecidableEq

/-- The ways in which a program gets a new object. -/
inductive Construction where
  | empty (c : Class)
  | adopt (c : RawClass) (raw : Pointer c.type)
  | move (other : ℕ)
  | request (msg : ℕ) (status : Status)
  | jetstream (status : Status)
  | keyValue (jetStream keyValue : Status)
  | createBucket (jetStream configInit createKeyValue : Status) (elided : Bool)

/-- `make` is a native constructor that the user calls, and `deliver` a call of
`async_msg_callback`, with a new message or with a null pointer. -/
inductive Action where
  | make (τ : NativeType)
  | openBlock
  | closeBlock (block : ℕ)
  | construct (e : Construction) (storage : Storage)
  | moveAssign (x other : ℕ)
  | release (x : ℕ)
  | reset (x : ℕ) (raw : Pointer .natsHeader)
  | destroy (x : ℕ)
  | destruct (x : ℕ)
  | publish (msg : ℕ) (status : Status)
  | publishMsg (js msg : ℕ) (status : Status)
  | deleteBucket (jetStream deleteKeyValue : Status)
  | deliver (present : Bool)

namespace State

variable (s : State)

/-- The user gets a handle. -/
def give {τ : NativeType} (p : Pointer τ) : State := { s with user := p.handles ++ s.user }

/-- The user passes on a handle that he holds, or a null pointer. -/
def take {τ : NativeType} : Pointer τ → Option State
  | .null => some s
  | .addr address =>
    if ⟨τ, address⟩ ∈ s.user then some { s with user := s.user.erase ⟨τ, address⟩ } else none

/-- The object at the address is of the class. -/
def isA (x : ℕ) (c : Class) : Prop := (s.objectAt x).map (·.cls) = some c

instance (x : ℕ) (c : Class) : Decidable (s.isA x c) := inferInstanceAs (Decidable (_ = _))

def openBlock (locals : List ℕ) : State := { s with blocks := s.blocks ++ [some locals] }

/-- The automatic objects of a block that has not been left. -/
def localsOf (b : ℕ) : Option (List ℕ) := s.blocks[b]?.join

/-- Whether an object with this storage can be made. -/
def admits : Storage → Prop
  | .automatic b => (s.localsOf b).isSome
  | .dynamic => True

instance : (storage : Storage) → Decidable (s.admits storage)
  | .automatic b => inferInstanceAs (Decidable ((s.localsOf b).isSome = true))
  | .dynamic => isTrue trivial

/-- A new object is put under the block that will destruct it. -/
def enroll (x : ℕ) : Storage → State
  | .automatic b => { s with blocks := s.blocks.modify b (·.map (x :: ·)) }
  | .dynamic => s

/-- The object is destructed by a block. -/
def isAutomatic (x : ℕ) : Bool := s.blocks.any fun b => (b.getD []).contains x

/-- The objects are destructed in the order of the list. -/
def destructAll (locals : List ℕ) : State := locals.foldl (fun s x => Handles.destruct x s) s

end State

/-- `async_msg_callback` up to the body of the handler. The handler's end and an exception
that it throws both leave the block, and no exception gets out. -/
def asyncMsgCallback (msg : Pointer .natsMsg) (s : State) : State :=
  if msg = .null then
    s
  else
    let (arg, s) := s.allocate (.message msg)
    s.openBlock [arg]

section Program

variable (texts : ErrorTexts Unit)

/-- What a construction yields, and the state after it; `none` where the program cannot do it. -/
def construct (s : State) : Construction → Option (Except Error ℕ × State)
  | .empty c => some ((act (·.allocate c.empty)).outcome s)
  | .adopt c raw => (s.take raw).map (act (·.allocate (c.owner.wrap raw))).outcome
  | .move other => (s.objectAt other).map fun w => (act (w.cls.moveConstruct other)).outcome s
  | .request msg status =>
    if s.isA msg .message then
      some ((callByValue (Connection.request texts status) msg).outcome s)
    else
      none
  | .jetstream status => some ((Jetstream.make texts status).outcome s)
  | .keyValue jetStream keyValue => some ((KeyValue.make texts jetStream keyValue).outcome s)
  | .createBucket jetStream configInit createKeyValue elided =>
    some ((KeyValue.create texts jetStream configInit createKeyValue elided).outcome s)

/-- Only an object that has been made is put under a block. -/
def enrolled (storage : Storage) : Except Error ℕ × State → State
  | (.ok x, s) => s.enroll x storage
  | (.error _, s) => s

def step (s : State) : Action → Option State
  | .make τ => some ((s.create τ).2.give (s.create τ).1)
  | .openBlock => some (s.openBlock [])
  | .closeBlock b => (s.localsOf b).map fun locals =>
      { s.destructAll locals with blocks := s.blocks.set b none }
  | .construct e storage =>
    if s.admits storage then (construct texts s e).map (enrolled storage) else none
  | .moveAssign x other =>
    match s.objectAt x, s.objectAt other with
    | some w, some w' => if w.cls = w'.cls then some (w.cls.moveAssign x other s) else none
    | _, _ => none
  | .release x =>
    match s.objectAt x with
    | some (.message _) => some ((messageMsg.release x s).2.give (messageMsg.release x s).1)
    | some (.header _) => some ((headerHeader.release x s).2.give (headerHeader.release x s).1)
    | _ => none
  | .reset x raw => if s.isA x .header then (s.take raw).map (headerHeader.reset x raw) else none
  | .destroy x => if s.isA x .header then some (headerHeader.reset x .null s) else none
  | .destruct x => if s.isAutomatic x then none else (s.objectAt x).map fun w => w.cls.destruct x s
  | .publish msg status =>
    if s.isA msg .message then
      some ((callByValue (Connection.publish texts status) msg).outcome s).2
    else
      none
  | .publishMsg js msg status =>
    if s.isA js .jetstream ∧ s.isA msg .message then
      some ((callByValue (Jetstream.publishMsg texts js status) msg).outcome s).2
    else
      none
  | .deleteBucket jetStream deleteKeyValue =>
    some ((KeyValue.deleteBucket texts jetStream deleteKeyValue).outcome s).2
  | .deliver true => some (asyncMsgCallback (s.create .natsMsg).1 (s.create .natsMsg).2)
  | .deliver false => some (asyncMsgCallback .null s)

def machine : Machine State Action := ⟨{}, step texts⟩

end Program

/-! ## Steps -/

section Steps

variable (texts : ErrorTexts Unit) {s t : State} {l : List Handle} {τ : NativeType}

theorem settled_outcome {α : Type} {p : Effect State Error α} (hp : Keeps l p) (hs : s.Settled l) :
    (p.outcome s).2.Settled l := by
  have hoc := hp s hs
  generalize p.outcome s = o at hoc
  obtain ⟨r, t⟩ := o
  cases r <;> exact hoc

theorem settled_give {p : Pointer τ} (hs : s.Settled (p.handles ++ l)) : (s.give p).Settled l := by
  intro h
  have hbefore := hs h
  rw [List.count_append, State.places] at hbefore
  change s.owned.count h + (p.handles ++ s.user).count h + s.destroyed.count h + _ = s.births h
  rw [List.count_append]
  omega

theorem settled_take {p : Pointer τ} (hs : s.Settled l) (ht : s.take p = some t) :
    t.Settled (p.handles ++ l) := by
  cases p with
  | null =>
    simp only [State.take, Option.some.injEq] at ht
    exact ht ▸ hs
  | addr address =>
    simp only [State.take, Option.ite_none_right_eq_some, Option.some.injEq] at ht
    obtain ⟨hmem, rfl⟩ := ht
    intro h
    have hbefore := hs h
    have htaken : s.user.count h =
        ((Pointer.addr (τ := τ) address).handles ++ s.user.erase ⟨τ, address⟩).count h :=
      (List.perm_cons_erase hmem).count_eq h
    rw [List.count_append] at htaken ⊢
    rw [State.places] at hbefore
    change s.owned.count h + (s.user.erase ⟨τ, address⟩).count h + s.destroyed.count h + _ =
      s.births h
    omega

theorem objectAt_take {p : Pointer τ} (ht : s.take p = some t) (x : ℕ) :
    t.objectAt x = s.objectAt x := by
  cases p with
  | null =>
    simp only [State.take, Option.some.injEq] at ht
    rw [ht]
  | addr address =>
    simp only [State.take, Option.ite_none_right_eq_some, Option.some.injEq] at ht
    rw [← ht.2]
    rfl

theorem exists_header_of_isA {x : ℕ} (hx : s.isA x .header) :
    ∃ p, s.objectAt x = some (.header p) := by
  obtain ⟨w, hw, hcls⟩ := Option.map_eq_some_iff.mp hx
  cases w with
  | header p => exact ⟨p, hw⟩
  | _ => exact absurd hcls (by simp [Wrapper.cls])

theorem settled_destructAll (hs : s.Settled l) (locals : List ℕ) :
    (s.destructAll locals).Settled l := by
  induction locals generalizing s with
  | nil => exact hs
  | cons x locals ih => exact ih (hs.destruct x)

theorem settled_enrolled (storage : Storage) (r : Except Error ℕ × State) (hr : r.2.Settled l) :
    (enrolled storage r).Settled l := by
  obtain ⟨r, t⟩ := r
  cases r with
  | error e => exact hr
  | ok x =>
    cases storage with
    | automatic b => exact hr
    | dynamic => exact hr

/-- The message of a delivery belongs to the argument of the handler. -/
theorem settled_asyncMsgCallback {msg : Pointer .natsMsg} (hs : s.Settled (msg.handles ++ l)) :
    (asyncMsgCallback msg s).Settled l := by
  by_cases hmsg : msg = .null
  · subst hmsg
    exact hs
  · rw [asyncMsgCallback, if_neg hmsg]
    exact State.Settled.allocate (w := .message msg) hs

theorem settled_construct {e : Construction} {r : Except Error ℕ × State} (hs : s.Settled [])
    (he : construct texts s e = some r) : r.2.Settled [] := by
  cases e with
  | empty c =>
    simp only [construct, Option.some.injEq] at he
    subst he
    exact State.Settled.allocate (by rwa [handles_empty])
  | adopt c raw =>
    obtain ⟨t, ht, rfl⟩ := Option.map_eq_some_iff.mp he
    refine State.Settled.allocate ?_
    rw [c.owner.handles_wrap]
    exact settled_take hs ht
  | move other =>
    obtain ⟨w, hw, rfl⟩ := Option.map_eq_some_iff.mp he
    exact Class.settled_moveConstruct hs hw
  | request msg status =>
    simp only [construct, Option.ite_none_right_eq_some, Option.some.injEq] at he
    obtain ⟨-, rfl⟩ := he
    exact settled_outcome (keeps_callByValue (Connection.keeps_request texts status) msg) hs
  | jetstream status =>
    simp only [construct, Option.some.injEq] at he
    exact he ▸ settled_outcome (Jetstream.keeps_make texts status) hs
  | keyValue jetStream keyValue =>
    simp only [construct, Option.some.injEq] at he
    exact he ▸ settled_outcome (KeyValue.keeps_make texts jetStream keyValue) hs
  | createBucket jetStream configInit createKeyValue elided =>
    simp only [construct, Option.some.injEq] at he
    exact he ▸ settled_outcome
      (KeyValue.keeps_create texts jetStream configInit createKeyValue elided) hs

/-- Between the steps of a program no handle is in flight. -/
theorem settled_step {a : Action} (hs : s.Settled []) (ht : step texts s a = some t) :
    t.Settled [] := by
  cases a with
  | make τ =>
    simp only [step, Option.some.injEq] at ht
    exact ht ▸ settled_give hs.create
  | openBlock =>
    simp only [step, Option.some.injEq] at ht
    exact ht ▸ hs
  | closeBlock b =>
    obtain ⟨locals, -, rfl⟩ := Option.map_eq_some_iff.mp ht
    exact settled_destructAll hs locals
  | construct e storage =>
    simp only [step, Option.ite_none_right_eq_some] at ht
    obtain ⟨r, hr, rfl⟩ := Option.map_eq_some_iff.mp ht.2
    exact settled_enrolled storage r (settled_construct texts hs hr)
  | moveAssign x other =>
    simp only [step] at ht
    split at ht
    · rename_i w w' hw hw'
      simp only [Option.ite_none_right_eq_some, Option.some.injEq] at ht
      obtain ⟨hcls, rfl⟩ := ht
      exact Class.settled_moveAssign hs hw hw' hcls
    · exact absurd ht (by simp)
  | release x =>
    simp only [step] at ht
    split at ht
    · simp only [Option.some.injEq] at ht
      exact ht ▸ settled_give (settled_release messageMsg.toMember x hs)
    · simp only [Option.some.injEq] at ht
      exact ht ▸ settled_give (settled_release headerHeader.toMember x hs)
    · exact absurd ht (by simp)
  | reset x raw =>
    simp only [step, Option.ite_none_right_eq_some] at ht
    obtain ⟨u, hu, rfl⟩ := Option.map_eq_some_iff.mp ht.2
    obtain ⟨p, hp⟩ := exists_header_of_isA ht.1
    rw [← objectAt_take hu] at hp
    exact settled_reset (m := headerHeader.toMember) (settled_take hs hu) hp rfl
  | destroy x =>
    simp only [step, Option.ite_none_right_eq_some, Option.some.injEq] at ht
    obtain ⟨hx, rfl⟩ := ht
    obtain ⟨p, hp⟩ := exists_header_of_isA hx
    exact settled_reset (m := headerHeader.toMember) (p := .null) hs hp rfl
  | destruct x =>
    simp only [step, Option.ite_none_left_eq_some] at ht
    obtain ⟨w, hw, rfl⟩ := Option.map_eq_some_iff.mp ht.2
    exact Class.settled_destruct hs hw
  | publish msg status =>
    simp only [step, Option.ite_none_right_eq_some, Option.some.injEq] at ht
    obtain ⟨-, rfl⟩ := ht
    exact settled_outcome (keeps_callByValue (Connection.keeps_publish texts status) msg) hs
  | publishMsg js msg status =>
    simp only [step, Option.ite_none_right_eq_some, Option.some.injEq] at ht
    obtain ⟨-, rfl⟩ := ht
    exact settled_outcome (keeps_callByValue (Jetstream.keeps_publishMsg texts js status) msg) hs
  | deleteBucket jetStream deleteKeyValue =>
    simp only [step, Option.some.injEq] at ht
    exact ht ▸ settled_outcome (KeyValue.keeps_deleteBucket texts jetStream deleteKeyValue) hs
  | deliver present =>
    cases present with
    | true =>
      simp only [step, Option.some.injEq] at ht
      exact ht ▸ settled_asyncMsgCallback hs.create
    | false =>
      simp only [step, Option.some.injEq] at ht
      exact ht ▸ hs

end Steps

/-! ## Runs -/

theorem settled_invariant (texts : ErrorTexts Unit) :
    (machine texts).Invariant Machine.Free (State.Settled · []) where
  init := fun _ => rfl
  step := fun hs _ ht => settled_step texts hs ht

/-- Every program destroys each native handle once, and owns it in one place until then. -/
theorem destroysOnce_throughout (texts : ErrorTexts Unit) (program : List Action) :
    (machine texts).Throughout State.DestroysOnce (machine texts).init program := by
  have hinv := settled_invariant texts
  exact (hinv.throughout hinv.init program).mono fun _ hs => hs.destroysOnce

/-- A handler moves its message into an object that outlives it, which a failing publish
consumes. -/
example : ((machine ⟨fun _ => none, fun _ => none⟩).run {}
    [.deliver true, .construct (.move 0) .dynamic, .closeBlock 0, .publish 1 (.other 3),
      .destruct 1]).map (·.destroyed) = some [⟨.natsMsg, 0⟩] := by
  decide

end NatsCpp.Handles
