import NatsCpp.Machine
import NatsCpp.SharedHeap
import Mathlib.Tactic.Simps.Basic

/-!
# Connection objects, request tasks and the native connections they share

A `connection` has three shared pointers: `conn_`, shared with the tasks of
`request_async`; `callback_state_`, the registry of message handlers; and
`callback_handlers_`, shared with the deleter of `conn_`. Each operation is cut
into its effects on these members, in the order in which C++ executes them. The
last owner to let go of `conn_` runs its deleter before it goes on.

Objects of the heap are named by numbers that are used once.
-/
namespace NatsCpp.Connection

/-- The connection events for which `connect` may install a bridge function. -/
inductive Kind where
  | closed
  | disconnected
  | reconnected
  | error
  | lameDuckMode
  | discoveredServers
  deriving DecidableEq

/-- An event with the closure pointer that its bridge function gets. -/
structure Event where
  kind : Kind
  handlers : ℕ
  deriving DecidableEq

/-- How far `natsConnection_Destroy` has come. -/
inductive Phase where
  | active
  | destroying
  | destroyed
  deriving DecidableEq

/-- A `natsConnection`: the closure and the engaged callbacks of its options. -/
structure Native where
  handlers : ℕ
  engaged : Finset Kind
  phase : Phase

/-- An async subscription of a native connection; its release closure has a weak
pointer to the registry. `destroyed` is set by `natsSubscription_Destroy`. -/
structure Sub where
  native : ℕ
  registry : ℕ
  destroyed : Bool

/-- Who may hold a copy of `conn_`. -/
inductive Holder where
  | object (o : ℕ)
  | request (r : ℕ)
  deriving DecidableEq

/-- Who may hold a `callback_handlers` object: `callback_handlers_`, the local
variable of a running `connect`, and the deleter of a native connection. -/
inductive HandlersOwner where
  | object (o : ℕ)
  | connecting (o : ℕ)
  | deleter (n : ℕ)
  deriving DecidableEq

/-- The next effect of the operation running on a connection object. -/
inductive Pc where
  | idle
  | connecting (h : ℕ) (engaged : Finset Kind)
  | settingHandlers (h : ℕ)
  | movingConn (src : ℕ)
  | movingState (src : ℕ)
  | movingHandlers (src : ℕ)
  | droppingHandlers
  | droppingState
  | droppingConn
  | ending
  deriving DecidableEq

/-- The next effect of a holder on the native connection whose `conn_` it was the
last to hold: to call `natsConnection_Destroy`, to return from it, and to free
the captures of the deleter. -/
inductive Deleting where
  | call (n : ℕ)
  | ret (n : ℕ)
  | free (n : ℕ)
  deriving DecidableEq

/-- An object of class `connection`; `lent` marks the source of a running move assignment. -/
structure Object where
  conn : Option ℕ
  callbackState : Option ℕ
  callbackHandlers : Option ℕ
  pc : Pc
  lent : Bool

def Object.idle (x : Object) : Prop := x.pc = .idle ∧ x.lent = false

instance (x : Object) : Decidable x.idle := inferInstanceAs (Decidable (_ ∧ _))

/-- The value of a registry is its map `callbacks`, as the set of the subscriptions
whose handlers are in it; nothing else owns these handlers. An event is in `events`
from when nats.c queues it until its bridge function has returned. -/
structure State where
  objects : ℕ → Option Object
  requests : ℕ → Option ℕ
  deleting : Holder → Option Deleting
  conns : SharedHeap ℕ Holder Unit
  registries : SharedHeap ℕ ℕ (Finset ℕ)
  handlers : SharedHeap ℕ HandlersOwner Unit
  natives : ℕ → Option Native
  subs : ℕ → Option Sub
  events : List Event
  fresh : ℕ

def initial : State where
  objects := fun _ => none
  requests := fun _ => none
  deleting := fun _ => none
  conns := fun _ => none
  registries := fun _ => none
  handlers := fun _ => none
  natives := fun _ => none
  subs := fun _ => none
  events := []
  fresh := 0

namespace State

@[simps -fullyApplied] def setObject (s : State) (o : ℕ) (x : Option Object) : State :=
  { s with objects := Function.update s.objects o x }

@[simps -fullyApplied] def setNative (s : State) (n : ℕ) (x : Native) : State :=
  { s with natives := Function.update s.natives n (some x) }

@[simps -fullyApplied] def setDeleting (s : State) (p : Holder) (d : Option Deleting) : State :=
  { s with deleting := Function.update s.deleting p d }

/-- `p` lets go of its copy of `conn_`; the last holder has the deleter to run. -/
def dropConn (s : State) (p : Holder) : Option ℕ → State
  | none => s
  | some n =>
    let conns := s.conns.drop n p
    { s with conns, deleting :=
        if conns.value n = none then Function.update s.deleting p (some (.call n)) else s.deleting }

end State

/-! ## Effects -/

/-- `connection()`: only `callback_state_` is not null. -/
def defaultConstruct (s : State) (o : ℕ) : State :=
  { s with
    registries := s.registries.make s.fresh ∅ o
    fresh := s.fresh + 1 }.setObject o (some ⟨none, some s.fresh, none, .idle, false⟩)

/-- `connection(connection&&) = default`. -/
def moveMembers (s : State) (o src : ℕ) (y : Object) : State :=
  ({ s with
    conns := s.conns.move y.conn (.object src) (.object o)
    registries := s.registries.move y.callbackState src o
    handlers := s.handlers.move y.callbackHandlers (.object src) (.object o) }.setObject o
      (some y)).setObject src
        (some { y with conn := none, callbackState := none, callbackHandlers := none })

/-- `connect` makes its `callback_handlers` object. -/
def makeHandlers (s : State) (o : ℕ) (x : Object) (engaged : Finset Kind) : State :=
  { s with
    handlers := s.handlers.make s.fresh () (.connecting o)
    fresh := s.fresh + 1 }.setObject o (some { x with pc := .connecting s.fresh engaged })

/-- `natsConnection_Connect` succeeds and the result goes into `conn_`, with the
handlers captured in its deleter. -/
def resetConn (s : State) (o : ℕ) (x : Object) (h : ℕ) (engaged : Finset Kind) : State :=
  ({ s.setNative s.fresh ⟨h, engaged, .active⟩ with
    conns := s.conns.make s.fresh () (.object o)
    handlers := s.handlers.share h (.deleter s.fresh)
    fresh := s.fresh + 1 }.setObject o
      (some { x with conn := some s.fresh, pc := .settingHandlers h })).dropConn (.object o) x.conn

/-- `natsConnection_Connect`, or a call that sets one of its options, fails. -/
def connectThrow (s : State) (o : ℕ) (x : Object) (h : ℕ) : State :=
  { s with handlers := s.handlers.reset (some h) (.connecting o) }.setObject o
    (some { x with pc := .idle })

/-- `callback_handlers_ = std::move(handlers)`. -/
def setHandlers (s : State) (o : ℕ) (x : Object) (h : ℕ) : State :=
  let moved := s.handlers.move (some h) (.connecting o) (.object o)
  { s with handlers := moved.reset x.callbackHandlers (.object o) }.setObject o
    (some { x with callbackHandlers := some h, pc := .idle })

/-- `conn_ = std::move(other.conn_)`. -/
def assignConn (s : State) (o src : ℕ) (x y : Object) : State :=
  (({ s with conns := s.conns.move y.conn (.object src) (.object o) }.setObject o
    (some { x with conn := y.conn, pc := .movingState src })).setObject src
      (some { y with conn := none })).dropConn (.object o) x.conn

/-- `callback_state_ = std::move(other.callback_state_)`. -/
def assignState (s : State) (o src : ℕ) (x y : Object) : State :=
  let moved := s.registries.move y.callbackState src o
  ({ s with registries := moved.reset x.callbackState o }.setObject o
    (some { x with callbackState := y.callbackState, pc := .movingHandlers src })).setObject src
      (some { y with callbackState := none })

/-- `callback_handlers_ = std::move(other.callback_handlers_)`; the source is given back. -/
def assignHandlers (s : State) (o src : ℕ) (x y : Object) : State :=
  let moved := s.handlers.move y.callbackHandlers (.object src) (.object o)
  ({ s with handlers := moved.reset x.callbackHandlers (.object o) }.setObject o
    (some { x with callbackHandlers := y.callbackHandlers, pc := .idle })).setObject src
      (some { y with callbackHandlers := none, lent := false })

/-- The destructor destroys the members last to first. -/
def dropHandlers (s : State) (o : ℕ) (x : Object) : State :=
  { s with handlers := s.handlers.reset x.callbackHandlers (.object o) }.setObject o
    (some { x with callbackHandlers := none, pc := .droppingState })

def dropState (s : State) (o : ℕ) (x : Object) : State :=
  { s with registries := s.registries.reset x.callbackState o }.setObject o
    (some { x with callbackState := none, pc := .droppingConn })

def dropConnMember (s : State) (o : ℕ) (x : Object) : State :=
  (s.setObject o (some { x with conn := none, pc := .ending })).dropConn (.object o) x.conn

/-- The deleter calls `natsConnection_Destroy`. -/
def callDestroy (s : State) (p : Holder) (n : ℕ) (x : Native) : State :=
  (s.setNative n { x with phase := .destroying }).setDeleting p (some (.ret n))

def returnDestroy (s : State) (p : Holder) (n : ℕ) (x : Native) : State :=
  (s.setNative n { x with phase := .destroyed }).setDeleting p (some (.free n))

/-- The control block of `conn_` goes, and with it the captures of the deleter. -/
def freeDeleter (s : State) (p : Holder) (n : ℕ) (x : Native) : State :=
  { s with handlers := s.handlers.reset (some x.handlers) (.deleter n) }.setDeleting p none

/-! ## Steps -/

def construct (s : State) (o : ℕ) : Option State :=
  match s.objects o with
  | none => some (defaultConstruct s o)
  | some _ => none

def moveConstruct (s : State) (o src : ℕ) : Option State :=
  match s.objects o, s.objects src with
  | none, some y => if y.idle then some (moveMembers s o src y) else none
  | _, _ => none

/-- Enters an operation on an object that no other operation is using. -/
def enter (s : State) (o : ℕ) (f : Object → State) : Option State :=
  match s.objects o with
  | some x => if x.idle then some (f x) else none
  | none => none

def connect (s : State) (o : ℕ) (engaged : Finset Kind) : Option State :=
  enter s o fun x => makeHandlers s o x engaged

def destroy (s : State) (o : ℕ) : Option State :=
  enter s o fun x => s.setObject o (some { x with pc := .droppingHandlers })

/-- `operator=(connection&&) = default`; member by member a self-move changes nothing. -/
def moveAssign (s : State) (o src : ℕ) : Option State :=
  match s.objects o, s.objects src with
  | some x, some y =>
    if x.idle ∧ y.idle then
      if o = src then some s
      else some ((s.setObject o (some { x with pc := .movingConn src })).setObject src
        (some { y with lent := true }))
    else none
  | _, _ => none

/-- `request_async` copies `conn_` into its task. -/
def requestAsync (s : State) (o r : ℕ) : Option State :=
  match s.objects o, s.requests r, s.deleting (.request r) with
  | some ⟨some n, _, _, .idle, false⟩, none, none =>
    some { s with
      conns := s.conns.share n (.request r)
      requests := Function.update s.requests r (some n) }
  | _, _, _ => none

/-- The task is over and lets go of its copy. -/
def endRequest (s : State) (r : ℕ) : Option State :=
  match s.requests r with
  | some n => some ({ s with
      requests := Function.update s.requests r none }.dropConn (.request r) (some n))
  | none => none

/-- `register_async_subscription` succeeds. -/
def subscribe (s : State) (o i : ℕ) : Option State :=
  match s.objects o, s.subs i with
  | some ⟨some n, some r, _, .idle, false⟩, none =>
    some { s with
      registries := s.registries.modify r (insert i)
      subs := Function.update s.subs i (some ⟨n, r, false⟩) }
  | _, _ => none

/-- The wrapper is unsubscribed or destroyed: `sub_.reset()`. -/
def destroySub (s : State) (i : ℕ) : Option State :=
  match s.subs i with
  | some x => some { s with subs := Function.update s.subs i (some { x with destroyed := true }) }
  | none => none

/-- `release_callback()` erases the handler if the registry is still there. -/
def releaseSub (s : State) (i : ℕ) : Option State :=
  match s.subs i with
  | some ⟨_, r, true⟩ => some { s with registries := s.registries.modify r (·.erase i) }
  | _ => none

/-- Performs the next effect of the operation running on `o`; `ok` is the outcome
of `natsConnection_Connect` when that is called. -/
def advanceObject (s : State) (o : ℕ) (ok : Bool) : Option State :=
  match s.objects o with
  | none => none
  | some x =>
    match x.pc with
    | .idle => none
    | .connecting h engaged =>
      if ok then some (resetConn s o x h engaged) else some (connectThrow s o x h)
    | .settingHandlers h => some (setHandlers s o x h)
    | .movingConn src => (s.objects src).map (assignConn s o src x)
    | .movingState src => (s.objects src).map (assignState s o src x)
    | .movingHandlers src => (s.objects src).map (assignHandlers s o src x)
    | .droppingHandlers => some (dropHandlers s o x)
    | .droppingState => some (dropState s o x)
    | .droppingConn => some (dropConnMember s o x)
    | .ending => some (s.setObject o none)

/-- Performs the next effect of the thread that works for `p`. -/
def advance (s : State) (p : Holder) (ok : Bool) : Option State :=
  match s.deleting p, p with
  | some (.call n), _ => (s.natives n).map (callDestroy s p n)
  | some (.ret n), _ => (s.natives n).map (returnDestroy s p n)
  | some (.free n), _ => (s.natives n).map (freeDeleter s p n)
  | none, .object o => advanceObject s o ok
  | none, .request _ => none

/-- nats.c queues an event of a connection for an installed callback. -/
def post (s : State) (n : ℕ) (kind : Kind) : Option State :=
  match s.natives n with
  | some ⟨h, engaged, phase⟩ =>
    if kind ∈ engaged ∧ phase ≠ .destroyed then
      some { s with events := ⟨kind, h⟩ :: s.events }
    else none
  | none => none

/-- The bridge function of an event returns; the event has been queued until now. -/
def dispatch (s : State) (e : Event) : Option State :=
  if e ∈ s.events then some { s with events := s.events.erase e } else none

inductive Action where
  | construct (o : ℕ)
  | moveConstruct (o src : ℕ)
  | connect (o : ℕ) (engaged : Finset Kind)
  | destroy (o : ℕ)
  | moveAssign (o src : ℕ)
  | requestAsync (o r : ℕ)
  | endRequest (r : ℕ)
  | subscribe (o i : ℕ)
  | destroySub (i : ℕ)
  | releaseSub (i : ℕ)
  | advance (p : Holder) (ok : Bool)
  | post (n : ℕ) (kind : Kind)
  | dispatch (e : Event)

def step (s : State) : Action → Option State
  | .construct o => construct s o
  | .moveConstruct o src => moveConstruct s o src
  | .connect o engaged => connect s o engaged
  | .destroy o => destroy s o
  | .moveAssign o src => moveAssign s o src
  | .requestAsync o r => requestAsync s o r
  | .endRequest r => endRequest s r
  | .subscribe o i => subscribe s o i
  | .destroySub i => destroySub s i
  | .releaseSub i => releaseSub s i
  | .advance p ok => advance s p ok
  | .post n kind => post s n kind
  | .dispatch e => dispatch s e

def machine : Machine State Action := ⟨initial, step⟩

end NatsCpp.Connection
