import NatsCpp.Errors
import NatsCpp.SubscriptionDelivery

/-!
# `register_async_subscription` when an allocation fails

The call makes its token, puts it into the registry, subscribes, and makes the
closure that the wrapper runs on release: each of these steps but the native
call allocates. An exception destroys the local `token` on its way out.
-/
namespace NatsCpp.RegisterAsync
open Subscription

/-- The allocations of the call: the token, the entry of the map, the text of the exception
of `throw_on_error`, and the release closure, which is too large for the buffer of a
`std::function`. -/
inductive Allocation where
  | token
  | entry
  | message
  | closure
  deriving DecidableEq

inductive Thrown where
  | badAlloc
  | error (e : Error)
  deriving DecidableEq

/-- Which allocations succeed, and what nats.c answers. -/
structure Outside where
  allocates : Allocation → Bool
  status : Status
  texts : ErrorTexts Unit

/-- `make_shared`. -/
def makeToken (s : State) (c : ℕ) (token : Closure) : State :=
  { s with
    functions := s.functions.make token.addr token.ident (.registering c)
    fresh := s.fresh + 1 }

/-- `callbacks[token.get()] = token`, which changes nothing if it throws. -/
def insertEntry (s : State) (c : ℕ) (token : Closure) : State :=
  { s with
    callbacks := insert token.addr s.callbacks
    functions := s.functions.share token.addr .registry }.setRegistration c
      (some ⟨token, .inserted⟩)

/-- `do_subscribe` returned `NATS_OK`. -/
def subscribed (s : State) (n : ℕ) : State :=
  s.mapNative n fun y => { y with phase := .active }

/-- The wrapper is returned, and the local `token` goes out of scope. -/
def returnWrapper (s : State) (c w n : ℕ) (token : Closure) : State :=
  (dropToken s c token).setWrapper w (some ⟨some n, some token.addr, ∅, .idle, false⟩)

section Call

variable (o : Outside) (c w n : ℕ) (token : Closure) (context : String)

def allocate (x : Allocation) : Effect State Thrown Unit :=
  if o.allocates x then pure () else throw .badAlloc

/-- `throw_on_error` for a status that is not `NATS_OK`. -/
def throwStatus : Effect State Thrown Unit := do
  allocate o .message
  throw (.error (nativeError o.texts o.status (some context) []))

/-- The call once it has its local `token`. -/
def withToken : Effect State Thrown Unit := do
  allocate o .entry
  Effect.update fun s => insertEntry s c token
  Effect.update fun s => enterSubscribe s c n token
  if o.status = .ok then
    Effect.update fun s => subscribed s n
    allocate o .closure
    Effect.update fun s => returnWrapper s c w n token
  else
    Effect.update fun s => failSubscribe s c n token
    Effect.update fun s => undoInsert s c token
    throwStatus o context

def registerAsyncSubscription : Effect State Thrown Unit := do
  allocate o .token
  Effect.update fun s => makeToken s c token
  (withToken o c w n token context).unwinding fun s => dropToken s c token

end Call

/-- A call in a state that a run has reached, with unused names for what it makes. -/
structure Prior where
  state : State
  c : ℕ
  w : ℕ
  n : ℕ
  addr : ℕ
  reached : machine.Reachable Machine.Free state
  newCall : state.registrations c = none
  newWrapper : state.wrappers w = none
  newNative : state.natives n = none
  free : state.functions.value addr = none

namespace Prior

variable (p : Prior)

def token : Closure := ⟨p.addr, p.state.fresh⟩

/-- `make_shared` and the insertion. -/
def inserted : State := insertCallback p.state p.c p.addr

def entered : State := enterSubscribe p.inserted p.c p.n p.token

/-- The registry no longer has the token of the failed registration. -/
def undone : State := undoInsert (failSubscribe p.entered p.c p.n p.token) p.c p.token

/-- The exception that leaves the call drops the local `token`. -/
def failed : State := dropToken p.undone p.c p.token

/-- What the call leaves behind when the closure cannot be allocated. -/
def leaked : State := dropToken (subscribed p.entered p.n) p.c p.token

def call (o : Outside) (context : String) : Except Thrown Unit × State :=
  (registerAsyncSubscription o p.c p.w p.n p.token context).outcome p.state

end Prior

/-- Without failures the first two steps are those of an interleaved registration. -/
theorem Prior.insertEntry_makeToken (p : Prior) :
    insertEntry (makeToken p.state p.c p.token) p.c p.token = p.inserted :=
  rfl

/-! ## Outcomes -/

section Outcomes

variable (o : Outside) (context : String) (p : Prior)

theorem outcome_allocate_of_true {x : Allocation} (h : o.allocates x = true) (s : State) :
    (allocate o x).outcome s = (.ok (), s) := by
  rw [allocate, if_pos h]
  rfl

theorem outcome_allocate_of_false {x : Allocation} (h : o.allocates x = false) (s : State) :
    (allocate o x).outcome s = (.error .badAlloc, s) := by
  rw [allocate, if_neg (by simp [h])]
  rfl

theorem outcome_throwStatus :
    ∃ e, ∀ s, (throwStatus o context).outcome s = (.error e, s) := by
  cases h : o.allocates .message with
  | true =>
    refine ⟨.error (nativeError o.texts o.status (some context) []), fun s => ?_⟩
    rw [throwStatus, Effect.outcome_bind_of_ok _ _ _ (outcome_allocate_of_true o h s)]
    rfl
  | false =>
    refine ⟨.badAlloc, fun s => ?_⟩
    rw [throwStatus, Effect.outcome_bind_of_error _ _ _ (outcome_allocate_of_false o h s)]

/-- How the call ends. -/
inductive Ends : Except Thrown Unit × State → Prop where
  | noToken (h : o.allocates .token = false) : Ends (.error .badAlloc, p.state)
  | noEntry (h : o.allocates .entry = false) :
      Ends (.error .badAlloc, dropToken (makeToken p.state p.c p.token) p.c p.token)
  | refused (h : o.status ≠ .ok) (e : Thrown) : Ends (.error e, p.failed)
  | noClosure (htoken : o.allocates .token = true) (hentry : o.allocates .entry = true)
      (hstatus : o.status = .ok) (hclosure : o.allocates .closure = false) :
      Ends (.error .badAlloc, p.leaked)
  | returned (hstatus : o.status = .ok) (hclosure : o.allocates .closure = true) :
      Ends (.ok (), returnSubscription p.entered p.c p.w p.n p.token)

theorem outcome_withToken_of_noEntry {c w n : ℕ} {token : Closure}
    (h : o.allocates .entry = false) (s : State) :
    (withToken o c w n token context).outcome s = (.error .badAlloc, s) :=
  Effect.outcome_bind_of_error _ _ _ (outcome_allocate_of_false o h s)

/-- With an entry in the map the call goes on with the native subscription. -/
theorem outcome_withToken_of_entry {c w n : ℕ} {token : Closure}
    (h : o.allocates .entry = true) (s : State) :
    (withToken o c w n token context).outcome s =
      (if o.status = .ok then do
        Effect.update fun s => subscribed s n
        allocate o .closure
        Effect.update fun s => returnWrapper s c w n token
      else do
        Effect.update fun s => failSubscribe s c n token
        Effect.update fun s => undoInsert s c token
        throwStatus o context : Effect State Thrown Unit).outcome
          (enterSubscribe (insertEntry s c token) c n token) := by
  rw [withToken, Effect.outcome_bind_of_ok _ _ _ (outcome_allocate_of_true o h s),
    Effect.outcome_bind_of_ok _ _ _ (Effect.outcome_update _ _),
    Effect.outcome_bind_of_ok _ _ _ (Effect.outcome_update _ _)]

theorem call_ends : Ends o p (p.call o context) := by
  unfold Prior.call registerAsyncSubscription
  cases htoken : o.allocates .token with
  | false =>
    rw [Effect.outcome_bind_of_error _ _ _ (outcome_allocate_of_false o htoken _)]
    exact .noToken htoken
  | true =>
    rw [Effect.outcome_bind_of_ok _ _ _ (outcome_allocate_of_true o htoken _),
      Effect.outcome_bind_of_ok _ _ _ (Effect.outcome_update _ _), Effect.outcome_unwinding]
    cases hentry : o.allocates .entry with
    | false =>
      rw [outcome_withToken_of_noEntry o context hentry]
      exact .noEntry hentry
    | true =>
      rw [outcome_withToken_of_entry o context hentry, p.insertEntry_makeToken]
      by_cases hstatus : o.status = .ok
      · rw [if_pos hstatus, Effect.outcome_bind_of_ok _ _ _ (Effect.outcome_update _ _)]
        cases hclosure : o.allocates .closure with
        | false =>
          rw [Effect.outcome_bind_of_error _ _ _ (outcome_allocate_of_false o hclosure _)]
          exact .noClosure htoken hentry hstatus hclosure
        | true =>
          rw [Effect.outcome_bind_of_ok _ _ _ (outcome_allocate_of_true o hclosure _),
            Effect.outcome_update]
          exact .returned hstatus hclosure
      · obtain ⟨e, he⟩ := outcome_throwStatus o context
        rw [if_neg hstatus, Effect.outcome_bind_of_ok _ _ _ (Effect.outcome_update _ _),
          Effect.outcome_bind_of_ok _ _ _ (Effect.outcome_update _ _), he]
        exact .refused hstatus e

end Outcomes

/-! ## The same call in the machine -/

section Machine

variable (p : Prior)

theorem reached_entered : machine.Reachable Machine.Free p.entered := by
  have hinsert : machine.step p.state (.registerInsert p.c p.addr) = some p.inserted := by
    simp [machine, step, registerInsert, p.newCall, p.free, Prior.inserted]
  have hbegin : machine.step p.inserted (.subscribeBegin p.c p.n) = some p.entered := by
    have hc : p.inserted.registrations p.c = some ⟨p.token, .inserted⟩ := by
      simp [Prior.inserted, insertCallback, Prior.token]
    have hn : p.inserted.natives p.n = none := p.newNative
    simp only [machine, step, subscribeBegin, hc, hn, Prior.entered]
  exact (p.reached.step trivial hinsert).step trivial hbegin

/-- A call that returns has gone through the steps of an interleaved registration. -/
theorem reached_returned :
    machine.Reachable Machine.Free (returnSubscription p.entered p.c p.w p.n p.token) := by
  have hc : p.entered.registrations p.c = some ⟨p.token, .subscribing p.n⟩ := by
    simp [Prior.entered, enterSubscribe]
  have hw : p.entered.wrappers p.w = none := p.newWrapper
  refine (reached_entered p).step (a := .subscribeOk p.c p.w) trivial ?_
  simp only [machine, step, subscribeOk, hc, hw]

/-- So has a call that nats.c has refused. -/
theorem reached_failed : machine.Reachable Machine.Free p.failed := by
  have hfail : machine.step p.entered (.subscribeFail p.c) =
      some (failSubscribe p.entered p.c p.n p.token) := by
    simp [machine, step, subscribeFail, Prior.entered, enterSubscribe]
  have herase : machine.step (failSubscribe p.entered p.c p.n p.token) (.registerErase p.c) =
      some p.undone := by
    simp [machine, step, registerErase, failSubscribe, Prior.undone]
  have hthrow : machine.step p.undone (.registerThrow p.c) = some p.failed := by
    simp [machine, step, registerThrow, Prior.undone, undoInsert, Prior.failed]
  exact (((reached_entered p).step trivial hfail).step trivial herase).step trivial hthrow

end Machine

/-! ## Atomicity -/

/-- If the call throws, the registry has what it had, and every native subscription that
the call has made is destroyed. -/
def AtomicOnFailure (s : State) (r : Except Thrown Unit × State) : Prop :=
  ∀ e, r.1 = .error e → r.2.callbacks = s.callbacks ∧
    (∀ b ∈ s.callbacks, r.2.functions.value b = s.functions.value b) ∧
    ∀ m y, s.natives m = none → r.2.natives m = some y → y.phase = .destroyed

section Atomicity

variable (p : Prior)

theorem notMem_callbacks : p.addr ∉ p.state.callbacks := by
  intro hmem
  have hk := (wellFormed_invariant.reachable p.reached).correspondence
  exact SharedHeap.value_ne_none_of_owner _ (hk.owned hmem) p.free

theorem value_makeToken {b : ℕ} (hb : b ≠ p.addr) (c : ℕ) :
    ((makeToken p.state p.c p.token).functions.drop p.addr (.registering c)).value b =
      p.state.functions.value b := by
  rw [SharedHeap.value_drop_of_ne _ _ _ _ hb]
  simp [makeToken, Prior.token, hb]

theorem atomic_noToken : AtomicOnFailure p.state (.error .badAlloc, p.state) := by
  refine fun e _ => ⟨rfl, fun b _ => rfl, fun m y hnone hy => ?_⟩
  rw [hnone] at hy
  contradiction

theorem atomic_noEntry : AtomicOnFailure p.state
    (.error .badAlloc, dropToken (makeToken p.state p.c p.token) p.c p.token) := by
  refine fun e _ => ⟨rfl, fun b hb => ?_, fun m y hnone hy => ?_⟩
  · have hne : b ≠ p.addr := fun heq => notMem_callbacks p (heq ▸ hb)
    exact value_makeToken p hne p.c
  · rw [show p.state.natives m = some y from hy] at hnone
    contradiction

theorem atomic_refused (e : Thrown) : AtomicOnFailure p.state (.error e, p.failed) := by
  refine fun e _ => ⟨?_, fun b hb => ?_, fun m y hnone hy => ?_⟩
  · have hnotMem := notMem_callbacks p
    simp [Prior.failed, Prior.undone, Prior.entered, Prior.inserted, dropToken, undoInsert,
      failSubscribe, enterSubscribe, insertCallback, Prior.token, hnotMem]
  · have hne : b ≠ p.addr := fun heq => notMem_callbacks p (heq ▸ hb)
    change (((failSubscribe p.entered p.c p.n p.token).functions.drop p.addr .registry).drop p.addr
      (.registering p.c)).value b = _
    rw [SharedHeap.value_drop_of_ne _ _ _ _ hne, SharedHeap.value_drop_of_ne _ _ _ _ hne]
    simp [failSubscribe, Prior.entered, enterSubscribe, Prior.inserted, insertCallback, hne]
  · by_cases hm : m = p.n
    · subst m
      have hdestroyed : p.failed.natives p.n = some ⟨.destroyed, some p.token, true, none, false⟩ := by
        simp [Prior.failed, Prior.undone, Prior.entered, dropToken, undoInsert, failSubscribe,
          State.destroyNative, enterSubscribe]
      obtain rfl := Option.some.inj (hdestroyed.symm.trans hy)
      rfl
    · have hsame : p.failed.natives m = p.state.natives m := by
        simp [Prior.failed, Prior.undone, Prior.entered, Prior.inserted, dropToken, undoInsert,
          failSubscribe, State.destroyNative, enterSubscribe, insertCallback, hm]
      rw [hsame.symm.trans hy] at hnone
      contradiction

theorem not_atomic_noClosure : ¬ AtomicOnFailure p.state (.error .badAlloc, p.leaked) := by
  intro h
  have hcallbacks := (h _ rfl).1
  have hmem : p.addr ∈ p.leaked.callbacks := Finset.mem_insert_self _ _
  rw [hcallbacks] at hmem
  exact notMem_callbacks p hmem

/-- The call is atomic exactly if it does not come to allocate the closure, or can. -/
theorem atomicOnFailure_iff (o : Outside) (context : String) :
    AtomicOnFailure p.state (p.call o context) ↔
      (o.allocates .token = true → o.allocates .entry = true → o.status = .ok →
        o.allocates .closure = true) := by
  have hends := call_ends o context p
  generalize p.call o context = r at hends
  cases hends with
  | noToken h => exact iff_of_true (atomic_noToken p) (by simp [h])
  | noEntry h => exact iff_of_true (atomic_noEntry p) (by simp [h])
  | refused h e => exact iff_of_true (atomic_refused p e) (by simp [h])
  | noClosure htoken hentry hstatus hclosure =>
    exact iff_of_false (not_atomic_noClosure p) (by simp [htoken, hentry, hstatus, hclosure])
  | returned hstatus hclosure => exact iff_of_true (by simp [AtomicOnFailure]) (by simp [hclosure])

end Atomicity

/-- A first registration. -/
def firstRegistration : Prior where
  state := initial
  c := 0
  w := 0
  n := 0
  addr := 0
  reached := Machine.Reachable.init
  newCall := rfl
  newWrapper := rfl
  newNative := rfl
  free := rfl

/-- Everything succeeds but the allocation of the closure. -/
def noClosure : Outside where
  allocates x := x != .closure
  status := .ok
  texts := ⟨fun _ => none, fun _ => none⟩

/-- The call throws, and the entry and the native subscription stay. -/
theorem firstRegistration_not_atomic :
    ¬ AtomicOnFailure initial (firstRegistration.call noClosure "natsConnection_Subscribe") := by
  intro h
  have hcall : firstRegistration.call noClosure "natsConnection_Subscribe" =
      (.error .badAlloc, firstRegistration.leaked) := rfl
  rw [hcall] at h
  obtain ⟨hcallbacks, -⟩ := h _ rfl
  revert hcallbacks
  decide

end NatsCpp.RegisterAsync
