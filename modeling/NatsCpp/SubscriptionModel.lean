import NatsCpp.Machine
import NatsCpp.SharedHeap
import Mathlib.Tactic.Simps.Basic

/-!
# Subscription wrappers and the callback registry of one connection

The connection object is neither moved nor destroyed. Any number of calls of
`register_async_subscription` and of member functions of `subscription` run at
the same time, each wrapper being used by one call at a time. A call is cut
into its effects on shared memory and on nats.c: a `Pc` or a `Stage` names the
effect it performs next. Deliveries and on-complete invocations are actions of
nats.c and may fall between any two effects.

Function objects live at addresses that the allocator may reuse once freed; the
identity stored at an address tells a reused address from the original object.
-/
namespace NatsCpp.Subscription

/-- Who may hold a `shared_ptr` to a `std::function` object: the map
`callback_state::callbacks`, a wrapper's `completion_callbacks_`, and the local
`token` of a running `register_async_subscription` or `set_on_complete_callback`. -/
inductive Owner where
  | registry
  | completions
  | registering (c : ℕ)
  | installing (w : ℕ)
  deriving DecidableEq

/-- A closure pointer given to nats.c, with the identity of the object it was taken from. -/
@[ext] structure Closure where
  addr : ℕ
  ident : ℕ
  deriving DecidableEq

/-- `subscribing` while the native subscribe call runs, `destroyed` once
`natsSubscription_Destroy` has returned or the subscribe call has failed. -/
inductive Phase where
  | subscribing
  | active
  | destroyed
  deriving DecidableEq

/-- What nats.c keeps for a `natsSubscription`. `handler` is `none` for a
synchronous subscription; `completed` records that the on-complete callback ran. -/
structure Native where
  phase : Phase
  handler : Option Closure
  closed : Bool
  onComplete : Option Closure
  completed : Bool

/-- Where a call of `register_async_subscription` stands. -/
inductive Stage where
  | inserted
  | subscribing (n : ℕ)
  | failed
  | erased
  deriving DecidableEq

structure Registration where
  token : Closure
  stage : Stage

/-- The next effect of the member function running on a wrapper. -/
inductive Pc where
  | idle
  | unsubscribing
  | unsubReset
  | unsubRelease
  | dtorReset
  | dtorRelease
  | dtorEnd
  | assignRelease (src : ℕ)
  | assignSub (src : ℕ)
  | assignRest (src : ℕ)
  | installing (k : Closure)
  | pruning (a : ℕ)
  | erasing (a : ℕ)
  deriving DecidableEq

/-- An object of class `subscription`. The release closure is represented by
the key it captures; `lent` marks the source of a running move assignment. -/
structure Wrapper where
  sub : Option ℕ
  onRelease : Option ℕ
  completionCallbacks : Finset ℕ
  pc : Pc
  lent : Bool

def Wrapper.idle (x : Wrapper) : Prop := x.pc = .idle ∧ x.lent = false

instance (x : Wrapper) : Decidable x.idle := inferInstanceAs (Decidable (_ ∧ _))

/-- A run of `async_msg_callback` on the dispatcher thread; `running` is set
while it is inside the handler. -/
structure Delivery where
  token : Closure
  running : Bool

abbrev Natives := ℕ → Option Native

abbrev Wrappers := ℕ → Option Wrapper

structure State where
  callbacks : Finset ℕ
  functions : SharedHeap ℕ Owner ℕ
  fresh : ℕ
  registrations : ℕ → Option Registration
  natives : Natives
  wrappers : Wrappers
  deliveries : ℕ → Option Delivery

def initial : State where
  callbacks := ∅
  functions := fun _ => none
  fresh := 0
  registrations := fun _ => none
  natives := fun _ => none
  wrappers := fun _ => none
  deliveries := fun _ => none

namespace State

@[simps -fullyApplied] def setRegistration (s : State) (c : ℕ) (r : Option Registration) : State :=
  { s with registrations := Function.update s.registrations c r }

@[simps -fullyApplied] def setWrapper (s : State) (w : ℕ) (x : Option Wrapper) : State :=
  { s with wrappers := Function.update s.wrappers w x }

@[simps -fullyApplied] def setNative (s : State) (n : ℕ) (x : Native) : State :=
  { s with natives := Function.update s.natives n (some x) }

@[simps -fullyApplied] def setDelivery (s : State) (d : ℕ) (x : Option Delivery) : State :=
  { s with deliveries := Function.update s.deliveries d x }

@[simps -fullyApplied] def mapNative (s : State) (n : ℕ) (f : Native → Native) : State :=
  { s with natives := Function.update s.natives n ((s.natives n).map f) }

/-- `natsSubscription_Unsubscribe` and `natsSubscription_Drain` close the subscription. -/
def closeNative (s : State) (n : ℕ) : State := s.mapNative n fun x => { x with closed := true }

/-- `subscription_deleter`: a null pointer is left alone. -/
def destroyNative (s : State) : Option ℕ → State
  | none => s
  | some n => s.mapNative n fun x => { x with phase := .destroyed, closed := true }

/-- `callbacks.erase(key)` under the lock: the map lets go of its token. -/
@[simps -fullyApplied] def eraseCallback (s : State) (a : ℕ) : State :=
  { s with callbacks := s.callbacks.erase a, functions := s.functions.drop a .registry }

end State

/-! ## Effects of `register_async_subscription` -/

/-- `make_shared` at a free address, then the locked insert. -/
def insertCallback (s : State) (c a : ℕ) : State :=
  { s with
    callbacks := insert a s.callbacks
    functions := (s.functions.make a s.fresh (.registering c)).share a .registry
    fresh := s.fresh + 1 }.setRegistration c (some ⟨⟨a, s.fresh⟩, .inserted⟩)

/-- `do_subscribe` is entered with the token's address as closure. -/
def enterSubscribe (s : State) (c n : ℕ) (token : Closure) : State :=
  (s.setNative n ⟨.subscribing, some token, false, none, false⟩).setRegistration c
    (some ⟨token, .subscribing n⟩)

/-- The local `token` goes out of scope. -/
def dropToken (s : State) (c : ℕ) (token : Closure) : State :=
  { s with functions := s.functions.drop token.addr (.registering c) }.setRegistration c none

/-- `do_subscribe` returned `NATS_OK`: the wrapper is built from the raw pointer
and the release closure, and the call returns. -/
def returnSubscription (s : State) (c w n : ℕ) (token : Closure) : State :=
  ((dropToken s c token).mapNative n fun x => { x with phase := .active }).setWrapper w
    (some ⟨some n, some token.addr, ∅, .idle, false⟩)

/-- `do_subscribe` returned an error: there is no native subscription. -/
def failSubscribe (s : State) (c n : ℕ) (token : Closure) : State :=
  (s.destroyNative (some n)).setRegistration c (some ⟨token, .failed⟩)

/-- The error path erases the token under the lock. -/
def undoInsert (s : State) (c : ℕ) (token : Closure) : State :=
  (s.eraseCallback token.addr).setRegistration c (some ⟨token, .erased⟩)

/-! ## Effects of the member functions of `subscription` -/

/-- `sub_.reset()`. -/
def resetSub (s : State) (w : ℕ) (x : Wrapper) : State :=
  (s.destroyNative x.sub).setWrapper w (some { x with sub := none })

/-- `release_callback()`: the release closure runs, if there is one, and is then cleared. -/
def releaseCallback (s : State) (w : ℕ) (x : Wrapper) : State :=
  match x.onRelease with
  | none => s.setWrapper w (some x)
  | some a => (s.eraseCallback a).setWrapper w (some { x with onRelease := none })

/-- The source of a move is left without its three members. -/
def Wrapper.emptied (y : Wrapper) : Wrapper :=
  { y with sub := none, onRelease := none, completionCallbacks := ∅ }

/-- `subscription(subscription&&)`. -/
def moveMembers (s : State) (w src : ℕ) (y : Wrapper) : State :=
  (s.setWrapper w (some y)).setWrapper src (some y.emptied)

/-- `sub_ = std::move(other.sub_)` destroys the subscription held so far. -/
def takeSub (s : State) (w src : ℕ) (x y : Wrapper) : State :=
  ((s.destroyNative x.sub).setWrapper w (some { x with sub := y.sub })).setWrapper src
    (some { y with sub := none })

/-- The tokens that satisfy `p` leave a wrapper's map. -/
@[simps -fullyApplied] def dropCompletions (s : State) (p : ℕ → Prop) [DecidablePred p] : State :=
  { s with functions := s.functions.dropAll p .completions }

/-- `on_release_` and `completion_callbacks_` are assigned and the source is given back. -/
def takeRest (s : State) (w src : ℕ) (x y : Wrapper) : State :=
  ((dropCompletions s (· ∈ x.completionCallbacks)).setWrapper w
    (some { x with onRelease := y.onRelease, completionCallbacks := y.completionCallbacks })).setWrapper
      src (some { y with onRelease := none, completionCallbacks := ∅, lent := false })

/-- The members are destroyed, and with them the map of completion callbacks. -/
def endLifetime (s : State) (w : ℕ) (x : Wrapper) : State :=
  (dropCompletions s (· ∈ x.completionCallbacks)).setWrapper w none

/-- `make_shared` at a free address, then the locked insert of `set_on_complete_callback`. -/
def insertCompletion (s : State) (w a : ℕ) (x : Wrapper) : State :=
  { s with
    functions := (s.functions.make a s.fresh (.installing w)).share a .completions
    fresh := s.fresh + 1 }.setWrapper w
      (some { x with
        completionCallbacks := insert a x.completionCallbacks
        pc := .installing ⟨a, s.fresh⟩ })

/-- `natsSubscription_SetOnCompleteCB` replaces the closure nats.c holds, if it succeeds. -/
def setOnCompleteCB (s : State) (w : ℕ) (x : Wrapper) (k : Closure) (ok : Bool) : State :=
  match ok, x.sub with
  | true, some n => (s.mapNative n fun y => { y with onComplete := some k }).setWrapper w
      (some { x with pc := .pruning k.addr })
  | _, _ => s.setWrapper w (some { x with pc := .erasing k.addr })

/-- The local `token` of `set_on_complete_callback` goes out of scope. -/
@[simps -fullyApplied] def dropInstalling (s : State) (w a : ℕ) : State :=
  { s with functions := s.functions.drop a (.installing w) }

/-- The locked loop that erases every token but the own one. -/
def pruneOthers (s : State) (w : ℕ) (x : Wrapper) (a : ℕ) : State :=
  (dropInstalling (dropCompletions s fun b => b ∈ x.completionCallbacks ∧ b ≠ a) w a).setWrapper w
    (some { x with completionCallbacks := x.completionCallbacks.filter (· = a) })

/-- The failure path erases the own token. -/
def eraseToken (s : State) (w : ℕ) (x : Wrapper) (a : ℕ) : State :=
  (dropInstalling (dropCompletions s (· = a)) w a).setWrapper w
    (some { x with completionCallbacks := x.completionCallbacks.erase a })

/-! ## Steps of `register_async_subscription` -/

def registerInsert (s : State) (c a : ℕ) : Option State :=
  if (s.registrations c).isNone ∧ (s.functions.value a).isNone then some (insertCallback s c a)
  else none

def subscribeBegin (s : State) (c n : ℕ) : Option State :=
  match s.registrations c, s.natives n with
  | some ⟨token, .inserted⟩, none => some (enterSubscribe s c n token)
  | _, _ => none

def subscribeOk (s : State) (c w : ℕ) : Option State :=
  match s.registrations c, s.wrappers w with
  | some ⟨token, .subscribing n⟩, none => some (returnSubscription s c w n token)
  | _, _ => none

def subscribeFail (s : State) (c : ℕ) : Option State :=
  match s.registrations c with
  | some ⟨token, .subscribing n⟩ => some (failSubscribe s c n token)
  | _ => none

def registerErase (s : State) (c : ℕ) : Option State :=
  match s.registrations c with
  | some ⟨token, .failed⟩ => some (undoInsert s c token)
  | _ => none

/-- `throw_on_error` unwinds the call. -/
def registerThrow (s : State) (c : ℕ) : Option State :=
  match s.registrations c with
  | some ⟨token, .erased⟩ => some (dropToken s c token)
  | _ => none

/-! ## Steps of the member functions -/

/-- `subscription(raw)` without a release closure; a null `raw` is the default constructor. -/
def construct (s : State) (w : ℕ) (raw : Option ℕ) : Option State :=
  match s.wrappers w, raw with
  | some _, _ => none
  | none, none => some (s.setWrapper w (some ⟨none, none, ∅, .idle, false⟩))
  | none, some n =>
    match s.natives n with
    | some _ => none
    | none => some ((s.setNative n ⟨.active, none, false, none, false⟩).setWrapper w
        (some ⟨some n, none, ∅, .idle, false⟩))

def moveConstruct (s : State) (w src : ℕ) : Option State :=
  match s.wrappers w, s.wrappers src with
  | none, some y => if y.idle then some (moveMembers s w src y) else none
  | _, _ => none

/-- Enters a member function on a wrapper that no other call is using. -/
def enter (s : State) (w : ℕ) (f : Wrapper → State) : Option State :=
  match s.wrappers w with
  | some x => if x.idle then some (f x) else none
  | none => none

/-- `unsubscribe` returns at once when there is no native subscription. -/
def unsubscribe (s : State) (w : ℕ) : Option State :=
  enter s w fun x => match x.sub with
    | none => s
    | some _ => s.setWrapper w (some { x with pc := .unsubscribing })

def destroy (s : State) (w : ℕ) : Option State :=
  enter s w fun x => s.setWrapper w (some { x with pc := .dtorReset })

/-- `operator=(subscription&&)`: a self-move returns at once. -/
def moveAssign (s : State) (w src : ℕ) : Option State :=
  match s.wrappers w, s.wrappers src with
  | some x, some y =>
    if x.idle ∧ y.idle then
      if w = src then some s
      else some ((s.setWrapper w (some { x with pc := .assignRelease src })).setWrapper src
        (some { y with lent := true }))
    else none
  | _, _ => none

/-- `check_valid` throws without effect on an empty wrapper. -/
def drain (s : State) (w : ℕ) : Option State :=
  enter s w fun x => match x.sub with
    | none => s
    | some n => s.closeNative n

/-- `set_on_complete_callback` up to the locked insert of its token. -/
def setOnCompleteCallback (s : State) (w a : ℕ) : Option State :=
  if (s.functions.value a).isSome then none
  else enter s w fun x => match x.sub with
    | none => s
    | some _ => insertCompletion s w a x

/-- Performs the next effect of the member function running on `w`; `ok` is the
outcome of the native call in it, if there is one. -/
def advance (s : State) (w : ℕ) (ok : Bool) : Option State :=
  match s.wrappers w with
  | none => none
  | some x =>
    match x.pc with
    | .idle => none
    | .unsubscribing =>
      match ok, x.sub with
      | true, some n => some ((s.closeNative n).setWrapper w (some { x with pc := .unsubReset }))
      | _, _ => some (s.setWrapper w (some { x with pc := .idle }))
    | .unsubReset => some (resetSub s w { x with pc := .unsubRelease })
    | .unsubRelease => some (releaseCallback s w { x with pc := .idle })
    | .dtorReset => some (resetSub s w { x with pc := .dtorRelease })
    | .dtorRelease => some (releaseCallback s w { x with pc := .dtorEnd })
    | .dtorEnd => some (endLifetime s w x)
    | .assignRelease src => some (releaseCallback s w { x with pc := .assignSub src })
    | .assignSub src => (s.wrappers src).map (takeSub s w src { x with pc := .assignRest src })
    | .assignRest src => (s.wrappers src).map (takeRest s w src { x with pc := .idle })
    | .installing k => some (setOnCompleteCB s w x k ok)
    | .pruning a => some (pruneOthers s w { x with pc := .idle } a)
    | .erasing a => some (eraseToken s w { x with pc := .idle } a)

/-! ## nats.c -/

/-- nats.c starts `async_msg_callback` while the subscribe call runs or the
subscription is not destroyed. A null message is ignored before the closure is used. -/
def deliver (s : State) (d n : ℕ) (msg : Option ℕ) : Option State :=
  match s.natives n, s.deliveries d with
  | some ⟨phase, some token, _, _, _⟩, none =>
    if phase = .destroyed then none
    else match msg with
      | none => some s
      | some _ => some (s.setDelivery d (some ⟨token, false⟩))
  | _, _ => none

/-- `(*fn)(message{msg})` is entered. -/
def callHandler (s : State) (d : ℕ) : Option State :=
  match s.deliveries d with
  | some ⟨token, false⟩ => some (s.setDelivery d (some ⟨token, true⟩))
  | _ => none

/-- The handler returns or its exception is caught, and the callback returns. -/
def returnHandler (s : State) (d : ℕ) : Option State :=
  match s.deliveries d with
  | some ⟨_, true⟩ => some (s.setDelivery d none)
  | _ => none

/-- nats.c runs the installed on-complete callback of a closed subscription, once. -/
def complete (s : State) (n : ℕ) : Option State :=
  match s.natives n with
  | some ⟨_, _, true, some _, false⟩ => some (s.mapNative n fun x => { x with completed := true })
  | _ => none

inductive Action where
  | registerInsert (c a : ℕ)
  | subscribeBegin (c n : ℕ)
  | subscribeOk (c w : ℕ)
  | subscribeFail (c : ℕ)
  | registerErase (c : ℕ)
  | registerThrow (c : ℕ)
  | construct (w : ℕ) (raw : Option ℕ)
  | moveConstruct (w src : ℕ)
  | unsubscribe (w : ℕ)
  | destroy (w : ℕ)
  | moveAssign (w src : ℕ)
  | drain (w : ℕ)
  | setOnCompleteCallback (w a : ℕ)
  | advance (w : ℕ) (ok : Bool)
  | deliver (d n : ℕ) (msg : Option ℕ)
  | callHandler (d : ℕ)
  | returnHandler (d : ℕ)
  | complete (n : ℕ)
  deriving DecidableEq

def step (s : State) : Action → Option State
  | .registerInsert c a => registerInsert s c a
  | .subscribeBegin c n => subscribeBegin s c n
  | .subscribeOk c w => subscribeOk s c w
  | .subscribeFail c => subscribeFail s c
  | .registerErase c => registerErase s c
  | .registerThrow c => registerThrow s c
  | .construct w raw => construct s w raw
  | .moveConstruct w src => moveConstruct s w src
  | .unsubscribe w => unsubscribe s w
  | .destroy w => destroy s w
  | .moveAssign w src => moveAssign s w src
  | .drain w => drain s w
  | .setOnCompleteCallback w a => setOnCompleteCallback s w a
  | .advance w ok => advance s w ok
  | .deliver d n msg => deliver s d n msg
  | .callHandler d => callHandler s d
  | .returnHandler d => returnHandler s d
  | .complete n => complete s n

def machine : Machine State Action := ⟨initial, step⟩

end NatsCpp.Subscription
