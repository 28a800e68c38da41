import NatsCpp.ConnectionOptions
import NatsCpp.ConnectionEvents

/-!
# `connection::connect`

The native options object is destroyed at the end of the scope, whether `connect`
returns or throws; the local variable `handlers` goes before it. What `connect`
does to the members of the connection object are steps of the connection
machine, so that a call of `connect` is a run of that machine.
-/
namespace NatsCpp.Connect
open Connection (Kind Object Native)

/-- The callbacks that `apply_nats_options` installs. -/
def ConnectionOptions.engaged (o : ConnectionOptions) : Finset Kind :=
  ({.closed, .disconnected, .reconnected, .error, .lameDuckMode, .discoveredServers} :
    Finset Kind).filter fun kind => (o.handlers.callback kind).isSome

/-- The native calls made, the connection objects with what they share, and what
the `callback_handlers` objects hold. -/
structure World where
  calls : List Call
  shared : Connection.State
  copied : ℕ → Option CallbackHandlers

abbrev Action (α : Type) := Effect World Error α

/-- Native calls are recorded in the world. -/
def native {α : Type} (p : Program Call Error α) : Action α :=
  p.within (·.calls) fun calls w => { w with calls }

/-- A step of the connection machine. -/
def fired (a : Connection.Action) (w : World) : World :=
  { w with shared := (Connection.step w.shared a).getD w.shared }

/-- `std::make_shared<callback_handlers>()`, and the copies of the functions. -/
def makeHandlers (o : ℕ) (options : ConnectionOptions) : Action ℕ := do
  let w ← get
  let handlers := w.shared.fresh
  Effect.update (fired (.connect o options.engaged))
  Effect.update fun w =>
    { w with copied := Function.update w.copied handlers (some options.handlers) }
  pure handlers

/-- The deleter of `conn_` runs if it has been let go of. -/
def deletePrevious (o : ℕ) (w : World) : World :=
  match w.shared.deleting (.object o) with
  | some (.call n) =>
    let advance := fired (.advance (.object o) true)
    advance (advance (advance { w with calls := w.calls ++ [.connectionDestroy n] }))
  | _ => w

def destroyOptions (nopts : ℕ) (w : World) : World :=
  { w with calls := w.calls ++ [.optionsDestroy nopts] }

section Connect

variable (nats : Nats) (tls : Bool) (nopts : ℕ) (o : ℕ) (options : ConnectionOptions)

/-- The calls between `natsOptions_Create` and the assignment of `conn_`. -/
def setup (handlers : ℕ) : Program Call Error Unit := do
  applyNatsOptions nats nopts tls options handlers
  if options.retryOnFailedConnect then
    setOption nats nopts (.setRetryOnFailedConnect true)
  natsConnectionConnect nats nopts

/-- The scope of `holder`. -/
def connectWith : Action Unit := do
  let handlers ← makeHandlers o options
  Effect.unwinding (native (setup nats tls nopts options handlers))
    (fired (.advance (.object o) false))
  Effect.update (fired (.advance (.object o) true))
  Effect.update (deletePrevious o)
  Effect.update (fired (.advance (.object o) true))

def connect : Action Unit := do
  let nopts ← native (natsOptionsCreate nats)
  Effect.guarded (connectWith nats tls nopts o options) (destroyOptions nopts)

end Connect

/-- The states of the connection machine. -/
abbrev Reached (s : Connection.State) : Prop := Connection.machine.Reachable Machine.Free s

theorem Reached.fired {s t : Connection.State} {a : Connection.Action} (hs : Reached s)
    (ht : Connection.step s a = some t) : Reached t :=
  Machine.Reachable.step hs trivial ht

/-- The state before a call of `connect` on an object that no other operation uses. -/
structure Prior where
  world : World
  o : ℕ
  object : Object
  reached : Reached world.shared
  found : world.shared.objects o = some object
  idle : object.idle
  quiet : world.shared.deleting (.object o) = none

@[simp] theorem mem_engaged {options : ConnectionOptions} {kind : Kind} :
    kind ∈ options.engaged ↔ (options.handlers.callback kind).isSome := by
  cases kind <;> simp [ConnectionOptions.engaged]

section Setup

variable (nats : Nats) (tls : Bool) (nopts : ℕ) (options : ConnectionOptions) (handlers : ℕ)
  (made : List Call)

/-- The setter that `connect` itself calls. -/
def retrySettings : List Setting :=
  if options.retryOnFailedConnect then [.setRetryOnFailedConnect true] else []

/-- All the calls that are made between `natsOptions_Create` and the assignment of `conn_`. -/
def setupCalls : List Call :=
  (settings (script tls options handlers) ++ retrySettings options).map (.set nopts) ++
    [.connect nopts]

/-- A call that configures the options object or uses it. -/
def Call.Uses (nopts : ℕ) (c : Call) : Prop :=
  c = .connect nopts ∨ ∃ x, c = .set nopts x

theorem uses_of_mem_map {xs : List Setting} {c : Call} (h : c ∈ xs.map (.set nopts)) :
    c.Uses nopts := by
  obtain ⟨x, _, rfl⟩ := List.mem_map.mp h
  exact .inr ⟨x, rfl⟩

theorem natsConnectionConnect_cases : ∃ r, (natsConnectionConnect nats nopts).outcome made =
    (r, made ++ [.connect nopts]) := by
  obtain ⟨r, hr, _⟩ := outcome_checked nats made (.connect nopts) "natsConnection_Connect"
  exact ⟨r, hr⟩

/-- The optional setter and the connect call. -/
theorem retry_cases : ∃ r done, ((do
      if options.retryOnFailedConnect then
        setOption nats nopts (.setRetryOnFailedConnect true)
      natsConnectionConnect nats nopts : Program Call Error Unit).outcome made) =
        (r, made ++ done) ∧ (∀ c ∈ done, c.Uses nopts) ∧
    (r = .ok () → done = (retrySettings options).map (.set nopts) ++ [.connect nopts]) := by
  obtain ⟨r, hr⟩ := natsConnectionConnect_cases nats nopts made
  by_cases hretry : options.retryOnFailedConnect = true
  · obtain ⟨r', hr', -⟩ := outcome_checked nats made (.set nopts (.setRetryOnFailedConnect true))
      (Setting.setRetryOnFailedConnect true).context
    change (setOption nats nopts (.setRetryOnFailedConnect true)).outcome made = _ at hr'
    simp only [hretry, if_true, retrySettings]
    cases r' with
    | error e =>
      refine ⟨.error e, _, Effect.outcome_bind_of_error _ _ _ hr', ?_, by simp⟩
      intro c hc
      exact .inr ⟨_, List.mem_singleton.mp hc⟩
    | ok =>
      obtain ⟨r, hr⟩ := natsConnectionConnect_cases nats nopts
        (made ++ [.set nopts (.setRetryOnFailedConnect true)])
      rw [List.append_assoc] at hr
      refine ⟨r, _, (Effect.outcome_bind_of_ok _ _ _ hr').trans hr, ?_, fun _ => rfl⟩
      simp [Call.Uses]
  · simp only [hretry, retrySettings]
    refine ⟨r, _, hr, ?_, fun _ => rfl⟩
    simp [Call.Uses]

/-- How the setup ends, and the calls that it makes. -/
theorem setup_cases : ∃ r done, (setup nats tls nopts options handlers).outcome made =
      (r, made ++ done) ∧ (∀ c ∈ done, c.Uses nopts) ∧
    (r = .ok () → script tls options handlers = (settings (script tls options handlers)).map .ok ∧
      done = setupCalls tls nopts options handlers) := by
  rcases applyScript_cases nats nopts made (script tls options handlers) with
    ⟨hscript, -, hout⟩ | ⟨-, e, done, -, hout⟩
  · obtain ⟨r, done, hr, huses, hdone⟩ := retry_cases nats nopts options
      (made ++ (settings (script tls options handlers)).map (.set nopts))
    rw [List.append_assoc] at hr
    refine ⟨r, _, (Effect.outcome_bind_of_ok _ _ _ hout).trans hr, ?_, ?_⟩
    · intro c hc
      rcases List.mem_append.mp hc with hc | hc
      · exact uses_of_mem_map nopts hc
      · exact huses c hc
    · intro hok
      refine ⟨hscript, ?_⟩
      rw [hdone hok, setupCalls, List.map_append, List.append_assoc]
  · refine ⟨.error e, _, Effect.outcome_bind_of_error _ _ _ hout, ?_, by simp⟩
    intro c hc
    exact uses_of_mem_map nopts hc

end Setup

section Shared

variable (p : Prior) (nats : Nats) (tls : Bool) (nopts : ℕ) (options : ConnectionOptions)
  (made : List Call)

theorem fired_of_step {a : Connection.Action} {s t : Connection.State} (calls : List Call)
    (copied : ℕ → Option CallbackHandlers) (ht : Connection.step s a = some t) :
    fired a ⟨calls, s, copied⟩ = ⟨calls, t, copied⟩ := by
  rw [fired, ht, Option.getD_some]

/-- The handlers of the options have been copied. -/
def Prior.copied : ℕ → Option CallbackHandlers :=
  Function.update p.world.copied p.world.shared.fresh (some options.handlers)

/-- The world while `connect` has its local variable. -/
def Prior.connecting : World where
  calls := made
  shared := Connection.makeHandlers p.world.shared p.o p.object options.engaged
  copied := p.copied options

theorem step_connect (e : Finset Kind) : Connection.step p.world.shared (.connect p.o e) =
    some (Connection.makeHandlers p.world.shared p.o p.object e) := by
  simp [Connection.step, Connection.connect, Connection.enter, p.found, p.idle]

theorem outcome_makeHandlers : (makeHandlers p.o options).outcome { p.world with calls := made } =
    (.ok p.world.shared.fresh, p.connecting options made) := by
  have hfired := fired_of_step made p.world.copied (step_connect p options.engaged)
  change (Except.ok _, _) = _
  simp [hfired, Prior.connecting, Prior.copied]

theorem step_throw (e : Finset Kind) :
    Connection.step (Connection.makeHandlers p.world.shared p.o p.object e)
      (.advance (.object p.o) false) =
        some { p.world.shared with fresh := p.world.shared.fresh + 1 } := by
  have hfree := (Connection.handlers_invariant.reachable p.reached).2.value_fresh
  have hobject : { p.object with pc := .idle } = p.object := by
    rw [← p.idle.1]
  have hobjects : Function.update p.world.shared.objects p.o (some p.object) =
      p.world.shared.objects := by
    rw [← p.found, Function.update_eq_self]
  simp only [Connection.step, Connection.advance, Connection.makeHandlers,
    Connection.State.setObject_deleting, p.quiet, Connection.advanceObject,
    Connection.State.setObject_objects, Function.update_self, Bool.false_eq_true, if_false,
    Connection.connectThrow, Connection.State.setObject_handlers, SharedHeap.reset_make _ hfree]
  simp only [Connection.State.setObject, Function.update_idem, hobject, hobjects]

/-- The state in which the new native connection has just been put into `conn_`. -/
def Prior.connected (e : Finset Kind) : Connection.State :=
  Connection.resetConn (Connection.makeHandlers p.world.shared p.o p.object e) p.o
    { p.object with pc := .connecting p.world.shared.fresh e } p.world.shared.fresh e

theorem step_connected (e : Finset Kind) :
    Connection.step (Connection.makeHandlers p.world.shared p.o p.object e)
      (.advance (.object p.o) true) = some (p.connected e) := by
  simp only [Connection.step, Connection.advance, Connection.makeHandlers,
    Connection.State.setObject_deleting, p.quiet, Connection.advanceObject,
    Connection.State.setObject_objects, Function.update_self, if_true]
  rfl

section Scope

variable {made' : List Call}

/-- The scope goes on from the local variable `handlers`. -/
theorem outcome_connectWith :
    (connectWith nats tls nopts p.o options).outcome { p.world with calls := made } =
      Effect.outcome (Effect.unwinding
        (native (setup nats tls nopts options p.world.shared.fresh))
          (fired (.advance (.object p.o) false)) >>= fun _ => do
        Effect.update (fired (.advance (.object p.o) true))
        Effect.update (deletePrevious p.o)
        Effect.update (fired (.advance (.object p.o) true))) (p.connecting options made) :=
  Effect.outcome_bind_of_ok _ _ _ (outcome_makeHandlers p options made)

theorem outcome_native_setup {r : Except Error Unit}
    (h : (setup nats tls nopts options p.world.shared.fresh).outcome made = (r, made')) :
    (native (setup nats tls nopts options p.world.shared.fresh)).outcome
      (p.connecting options made) = (r, p.connecting options made') := by
  simp only [native, Effect.outcome_within, Prior.connecting, h]

theorem connectWith_of_error {e : Error}
    (h : (setup nats tls nopts options p.world.shared.fresh).outcome made = (.error e, made')) :
    (connectWith nats tls nopts p.o options).outcome { p.world with calls := made } =
      (.error e, ⟨made', { p.world.shared with fresh := p.world.shared.fresh + 1 },
        p.copied options⟩) := by
  have hunwinding := Effect.outcome_unwinding
    (native (setup nats tls nopts options p.world.shared.fresh)) (p.connecting options made)
    (fired (.advance (.object p.o) false))
  rw [outcome_native_setup p nats tls nopts options made h] at hunwinding
  rw [outcome_connectWith, Effect.outcome_bind_of_error _ _ _ hunwinding, Prior.connecting,
    fired_of_step _ _ (step_throw p options.engaged)]

theorem connectWith_of_ok
    (h : (setup nats tls nopts options p.world.shared.fresh).outcome made = (.ok (), made')) :
    (connectWith nats tls nopts p.o options).outcome { p.world with calls := made } =
      (.ok (), fired (.advance (.object p.o) true) (deletePrevious p.o
        ⟨made', p.connected options.engaged, p.copied options⟩)) := by
  have hunwinding := Effect.outcome_unwinding
    (native (setup nats tls nopts options p.world.shared.fresh)) (p.connecting options made)
    (fired (.advance (.object p.o) false))
  rw [outcome_native_setup p nats tls nopts options made h] at hunwinding
  have hfired := fired_of_step made' (p.copied options) (step_connected p options.engaged)
  rw [outcome_connectWith, Effect.outcome_bind_of_ok _ _ _ hunwinding, ← hfired]
  rfl

end Scope

end Shared

section Previous

variable {s : Connection.State} {o m : ℕ} {y : Native}

/-- The state in which the deleter of a native connection has run to its end. -/
def deleted (s : Connection.State) (o m : ℕ) (y : Native) : Connection.State :=
  { s with
    natives := Function.update s.natives m (some { y with phase := .destroyed })
    deleting := Function.update s.deleting (.object o) none
    handlers := s.handlers.reset (some y.handlers) (.deleter m) }

theorem deletePrevious_of_none {w : World} (h : w.shared.deleting (.object o) = none) :
    deletePrevious o w = w := by
  rw [deletePrevious, h]

theorem step_callDestroy (h : s.deleting (.object o) = some (.call m))
    (hy : s.natives m = some y) : Connection.step s (.advance (.object o) true) =
    some (Connection.callDestroy s (.object o) m y) := by
  simp [Connection.step, Connection.advance, h, hy]

theorem step_returnDestroy : Connection.step (Connection.callDestroy s (.object o) m y)
    (.advance (.object o) true) =
      some (Connection.returnDestroy (Connection.callDestroy s (.object o) m y) (.object o) m
        { y with phase := .destroying }) := by
  simp [Connection.step, Connection.advance, Connection.callDestroy]

theorem step_freeDeleter : Connection.step (Connection.returnDestroy
      (Connection.callDestroy s (.object o) m y) (.object o) m { y with phase := .destroying })
    (.advance (.object o) true) = some (deleted s o m y) := by
  simp [Connection.step, Connection.advance, Connection.callDestroy, Connection.returnDestroy,
    Connection.freeDeleter, Connection.State.setDeleting, Connection.State.setNative, deleted]

theorem reachable_deleted (h : s.deleting (.object o) = some (.call m))
    (hy : s.natives m = some y) (hs : Reached s) : Reached (deleted s o m y) :=
  ((hs.fired (step_callDestroy h hy)).fired step_returnDestroy).fired step_freeDeleter

theorem deletePrevious_of_call (h : s.deleting (.object o) = some (.call m))
    (hy : s.natives m = some y) (calls : List Call) (copied : ℕ → Option CallbackHandlers) :
    deletePrevious o ⟨calls, s, copied⟩ =
      ⟨calls ++ [.connectionDestroy m], deleted s o m y, copied⟩ := by
  have hcall := fired_of_step (calls ++ [.connectionDestroy m]) copied (step_callDestroy h hy)
  have hret := fired_of_step (calls ++ [.connectionDestroy m]) copied
    (step_returnDestroy (s := s) (o := o) (m := m) (y := y))
  have hfree := fired_of_step (calls ++ [.connectionDestroy m]) copied
    (step_freeDeleter (s := s) (o := o) (m := m) (y := y))
  simp only [deletePrevious, h]
  rw [hcall, hret, hfree]

end Previous

section Success

variable (p : Prior) (e : Finset Kind)

/-- The object when `conn_` has been assigned. -/
def Prior.assigned : Object :=
  { p.object with
    conn := some (p.world.shared.fresh + 1)
    pc := .settingHandlers p.world.shared.fresh }

/-- The previous native connection, if nobody else holds it. -/
def Prior.last : Option ℕ :=
  p.object.conn.filter fun m => (p.world.shared.conns.owners m).erase (.object p.o) = ∅

theorem reached_connected : Reached (p.connected e) :=
  (p.reached.fired (step_connect p e)).fired (step_connected p e)

theorem connected_objects : (p.connected e).objects p.o = some p.assigned := by
  rw [Prior.connected, Connection.resetConn, Connection.State.dropConn_objects]
  exact Function.update_self _ _ _

theorem connected_natives : (p.connected e).natives =
    Function.update p.world.shared.natives (p.world.shared.fresh + 1)
      (some ⟨p.world.shared.fresh, e, .active⟩) := by
  rw [Prior.connected, Connection.resetConn, Connection.State.dropConn_natives]
  rfl

theorem connected_conns : (p.connected e).conns =
    (p.world.shared.conns.make (p.world.shared.fresh + 1) () (.object p.o)).reset p.object.conn
      (.object p.o) := by
  rw [Prior.connected, Connection.resetConn, Connection.State.dropConn_conns]
  rfl

theorem lt_fresh_of_conn {m : ℕ} (hm : p.object.conn = some m) : m < p.world.shared.fresh := by
  have hholding := Connection.holding_invariant.reachable p.reached
  exact hholding.lt_fresh (hholding.value_of_conn p.found hm)

/-- The deleter of the previous connection is to run if nobody else holds it. -/
theorem connected_deleting :
    (p.connected e).deleting (.object p.o) = p.last.map .call := by
  rw [Prior.connected, Connection.resetConn]
  cases hconn : p.object.conn with
  | none => simp [Connection.State.dropConn, Prior.last, hconn, Connection.makeHandlers, p.quiet]
  | some m =>
    have hne : m ≠ p.world.shared.fresh + 1 := (Nat.lt_succ_of_lt (lt_fresh_of_conn p hconn)).ne
    have hlive := (Connection.holding_invariant.reachable p.reached).value_of_conn p.found hconn
    have hvalue : ((p.world.shared.conns.make (p.world.shared.fresh + 1) ()
        (.object p.o)).drop m (.object p.o)).value m = none ↔
          (p.world.shared.conns.owners m).erase (.object p.o) = ∅ := by
      rw [SharedHeap.drop, SharedHeap.value_dropAll, SharedHeap.owners_make, if_neg hne,
        SharedHeap.value_make, if_neg hne]
      simp [hlive]
    simp only [Connection.State.dropConn, Connection.State.setObject_conns,
      Connection.State.setObject_deleting, Connection.makeHandlers]
    by_cases hlast : (p.world.shared.conns.owners m).erase (.object p.o) = ∅
    · simp [Prior.last, hconn, hlast, hvalue]
    · simp [Prior.last, hconn, hlast, hvalue, p.quiet]

theorem conn_of_last {m : ℕ} (hm : p.last = some m) : p.object.conn = some m :=
  (Option.filter_eq_some_iff.mp hm).1

/-- What `connect` has done when it comes to `callback_handlers_ = std::move(handlers)`. -/
structure Taken (t : Connection.State) : Prop where
  reached : Reached t
  quiet : t.deleting (.object p.o) = none
  objects : t.objects = (p.connected e).objects
  conns : t.conns = (p.connected e).conns
  native : t.natives (p.world.shared.fresh + 1) = some ⟨p.world.shared.fresh, e, .active⟩

theorem exists_taken (calls : List Call) (copied : ℕ → Option CallbackHandlers) :
    ∃ t, Taken p e t ∧ deletePrevious p.o ⟨calls, p.connected e, copied⟩ =
      ⟨calls ++ (p.last.map .connectionDestroy).toList, t, copied⟩ := by
  have hd := connected_deleting p e
  have hnative : (p.connected e).natives (p.world.shared.fresh + 1) =
      some ⟨p.world.shared.fresh, e, .active⟩ := by
    rw [connected_natives, Function.update_self]
  cases hlast : p.last with
  | none =>
    rw [hlast] at hd
    refine ⟨p.connected e, ⟨reached_connected p e, hd, rfl, rfl, hnative⟩, ?_⟩
    rw [deletePrevious_of_none hd]
    simp
  | some m =>
    rw [hlast] at hd
    have hne : p.world.shared.fresh + 1 ≠ m :=
      (Nat.lt_succ_of_lt (lt_fresh_of_conn p (conn_of_last p hlast))).ne'
    obtain ⟨y, hy, -⟩ :=
      (Connection.holding_invariant.reachable (reached_connected p e)).deletions.phase hd
    refine ⟨deleted (p.connected e) p.o m y, ⟨?_, ?_, rfl, rfl, ?_⟩, ?_⟩
    · exact reachable_deleted hd hy (reached_connected p e)
    · exact Function.update_self _ _ _
    · exact (Function.update_of_ne hne _ _).trans hnative
    · exact deletePrevious_of_call hd hy calls copied

/-- The object when `connect` returns. -/
def Prior.returned : Object :=
  { p.object with
    conn := some (p.world.shared.fresh + 1)
    callbackHandlers := some p.world.shared.fresh }

theorem step_setHandlers {t : Connection.State} (ht : Taken p e t) :
    Connection.step t (.advance (.object p.o) true) =
      some (Connection.setHandlers t p.o p.assigned p.world.shared.fresh) := by
  have hobject : t.objects p.o = some p.assigned := by rw [ht.objects, connected_objects]
  simp only [Connection.step, Connection.advance, ht.quiet, Connection.advanceObject, hobject]
  rfl

theorem setHandlers_objects (t : Connection.State) :
    (Connection.setHandlers t p.o p.assigned p.world.shared.fresh).objects p.o =
      some p.returned := by
  have hreturned : { p.assigned with
      callbackHandlers := some p.world.shared.fresh
      pc := .idle } = p.returned := by
    rw [Prior.assigned, Prior.returned, ← p.idle.1]
  rw [← hreturned]
  exact Function.update_self _ _ _

end Success

section Guarantee

variable (nats : Nats) (tls : Bool) (p : Prior) (options : ConnectionOptions)

/-- The native options object that `natsOptions_Create` returns. -/
def Prior.nopts : ℕ := nats.options (p.world.calls ++ [.optionsCreate])

/-- The calls of a `connect` that returns. -/
def Prior.allCalls : List Call :=
  .optionsCreate :: (setupCalls tls (p.nopts nats) options p.world.shared.fresh ++
    ((p.last.map .connectionDestroy).toList ++ [.optionsDestroy (p.nopts nats)]))

/-- How a call of `connect` ends: without an options object, by an exception in
its scope, or by returning. -/
inductive Ends : Except Error Unit × World → Prop where
  | notCreated (hstatus : nats.status (p.world.calls ++ [.optionsCreate]) ≠ .ok) (e : Error) :
      Ends (.error e, { p.world with calls := p.world.calls ++ [.optionsCreate] })
  | threw (hstatus : nats.status (p.world.calls ++ [.optionsCreate]) = .ok) (e : Error)
      (done : List Call) (huses : ∀ c ∈ done, c.Uses (p.nopts nats)) :
      Ends (.error e, ⟨p.world.calls ++ (.optionsCreate :: done ++ [.optionsDestroy (p.nopts nats)]),
        { p.world.shared with fresh := p.world.shared.fresh + 1 }, p.copied options⟩)
  | returned (hstatus : nats.status (p.world.calls ++ [.optionsCreate]) = .ok)
      (hscript : script tls options p.world.shared.fresh =
        (settings (script tls options p.world.shared.fresh)).map .ok)
      (t : Connection.State) (ht : Taken p options.engaged t) :
      Ends (.ok (), ⟨p.world.calls ++ p.allCalls nats tls options,
        Connection.setHandlers t p.o p.assigned p.world.shared.fresh, p.copied options⟩)

theorem natsOptionsCreate_of_ok {made : List Call}
    (hok : nats.status (made ++ [.optionsCreate]) = .ok) : (natsOptionsCreate nats).outcome made =
      (.ok (nats.options (made ++ [.optionsCreate])), made ++ [.optionsCreate]) := by
  rw [natsOptionsCreate, outcome_checked_ok _ _ _ _ _ _ hok, Effect.outcome_pure]

theorem natsOptionsCreate_of_ne {made : List Call}
    (hne : nats.status (made ++ [.optionsCreate]) ≠ .ok) :
    ∃ e, (natsOptionsCreate nats).outcome made = (.error e, made ++ [.optionsCreate]) := by
  rw [natsOptionsCreate]
  exact ⟨_, outcome_checked_of_ne _ _ _ _ _ _ hne⟩

theorem created_of_ok (hok : nats.status (p.world.calls ++ [.optionsCreate]) = .ok) :
    (native (natsOptionsCreate nats)).outcome p.world =
      (.ok (p.nopts nats), { p.world with calls := p.world.calls ++ [.optionsCreate] }) := by
  simp only [native, Effect.outcome_within, natsOptionsCreate_of_ok nats hok, Prior.nopts]

theorem connect_of_not_created (hne : nats.status (p.world.calls ++ [.optionsCreate]) ≠ .ok) :
    ∃ e, (connect nats tls p.o options).outcome p.world =
      (.error e, { p.world with calls := p.world.calls ++ [.optionsCreate] }) := by
  obtain ⟨e, hout⟩ := natsOptionsCreate_of_ne nats hne
  have hnative : (native (natsOptionsCreate nats)).outcome p.world =
      (.error e, { p.world with calls := p.world.calls ++ [.optionsCreate] }) := by
    simp only [native, Effect.outcome_within, hout]
  exact ⟨e, Effect.outcome_bind_of_error _ _ _ hnative⟩

theorem connect_ends : Ends nats tls p options ((connect nats tls p.o options).outcome p.world) := by
  by_cases hok : nats.status (p.world.calls ++ [.optionsCreate]) = .ok
  · rw [connect, Effect.outcome_bind_of_ok _ _ _ (created_of_ok nats p hok), Effect.outcome_guarded]
    obtain ⟨r, done, hr, huses, hdone⟩ := setup_cases nats tls (p.nopts nats) options
      p.world.shared.fresh (p.world.calls ++ [.optionsCreate])
    cases r with
    | error e =>
      rw [connectWith_of_error p nats tls _ options _ hr]
      simp only [destroyOptions, List.append_assoc]
      exact .threw hok e done huses
    | ok =>
      obtain ⟨hscript, rfl⟩ := hdone rfl
      obtain ⟨t, ht, hdelete⟩ := exists_taken p options.engaged
        (p.world.calls ++ [.optionsCreate] ++
          setupCalls tls (p.nopts nats) options p.world.shared.fresh) (p.copied options)
      rw [connectWith_of_ok p nats tls _ options _ hr, hdelete,
        fired_of_step _ _ (step_setHandlers p options.engaged ht)]
      simp only [destroyOptions, List.append_assoc]
      exact .returned hok hscript t ht
  · obtain ⟨e, hout⟩ := connect_of_not_created nats tls p options hok
    rw [hout]
    exact .notCreated hok e

/-- After an exception: every member of every connection object is as before,
no native connection has been destroyed, and the options object is gone. -/
structure Unchanged (made : List Call) (w : World) : Prop where
  object : w.shared.objects p.o = some p.object
  shared : ∃ n, w.shared = { p.world.shared with fresh := n }
  copied : ∀ k < p.world.shared.fresh, w.copied k = p.world.copied k
  kept : ∀ n, .connectionDestroy n ∉ made
  destroyedOnce : nats.status (p.world.calls ++ [.optionsCreate]) = .ok →
    made.count (.optionsDestroy (p.nopts nats)) = 1
  onlyCreated : ∀ k, .optionsDestroy k ∈ made →
    nats.status (p.world.calls ++ [.optionsCreate]) = .ok ∧ k = p.nopts nats

/-- After a return: the object has the new native connection `n` with handlers
`h` copied from the options, and has let go of the previous connection. -/
structure Connected (made : List Call) (w : World) (n h : ℕ) : Prop where
  object : w.shared.objects p.o =
    some { p.object with conn := some n, callbackHandlers := some h }
  isNew : p.world.shared.natives n = none
  native : w.shared.natives n = some ⟨h, options.engaged, .active⟩
  copied : w.copied h = some options.handlers
  alive : .object p.o ∈ w.shared.handlers.owners h ∧ .deleter n ∈ w.shared.handlers.owners h
  installed : ∀ kind k, .set (p.nopts nats) (.setCallback kind k) ∈ made ↔
    kind ∈ options.engaged ∧ k = h
  connected : .connect (p.nopts nats) ∈ made
  destroyedOnce : made.count (.optionsDestroy (p.nopts nats)) = 1
  onlyCreated : ∀ k, .optionsDestroy k ∈ made → k = p.nopts nats
  dropped : ∀ m, p.object.conn = some m →
    w.shared.conns.owners m = (p.world.shared.conns.owners m).erase (.object p.o)
  deleted : ∀ m, made.count (.connectionDestroy m) =
    if p.object.conn = some m ∧ (p.world.shared.conns.owners m).erase (.object p.o) = ∅ then 1 else 0

variable {nats p}

theorem ne_destroy_of_uses {c : Call} (h : c.Uses (p.nopts nats)) (k : ℕ) :
    c ≠ .optionsDestroy k ∧ c ≠ .connectionDestroy k := by
  rcases h with rfl | ⟨x, rfl⟩ <;> simp

theorem count_destroy_of_uses {done : List Call} (h : ∀ c ∈ done, c.Uses (p.nopts nats)) (k : ℕ) :
    done.count (.optionsDestroy k) = 0 ∧ done.count (.connectionDestroy k) = 0 := by
  simp only [List.count_eq_zero]
  exact ⟨fun hk => (ne_destroy_of_uses (h _ hk) k).1 rfl,
    fun hk => (ne_destroy_of_uses (h _ hk) k).2 rfl⟩

theorem uses_of_mem_setupCalls (handlers : ℕ) {c : Call}
    (h : c ∈ setupCalls tls (p.nopts nats) options handlers) : c.Uses (p.nopts nats) := by
  rcases List.mem_append.mp h with h | h
  · exact uses_of_mem_map _ h
  · exact .inl (List.mem_singleton.mp h)

theorem unchanged_notCreated (h : nats.status (p.world.calls ++ [.optionsCreate]) ≠ .ok) :
    Unchanged nats p [.optionsCreate]
      { p.world with calls := p.world.calls ++ [.optionsCreate] } where
  object := p.found
  shared := ⟨p.world.shared.fresh, rfl⟩
  copied _ _ := rfl
  kept := by simp
  destroyedOnce hok := (h hok).elim
  onlyCreated := by simp

theorem unchanged_threw (h : nats.status (p.world.calls ++ [.optionsCreate]) = .ok)
    {done : List Call} (huses : ∀ c ∈ done, c.Uses (p.nopts nats)) (calls : List Call) :
    Unchanged nats p (.optionsCreate :: done ++ [.optionsDestroy (p.nopts nats)])
      ⟨calls, { p.world.shared with fresh := p.world.shared.fresh + 1 }, p.copied options⟩ where
  object := p.found
  shared := ⟨_, rfl⟩
  copied k hk := Function.update_of_ne hk.ne _ _
  kept n hn := by
    have hzero := (count_destroy_of_uses huses n).2
    rw [List.count_eq_zero] at hzero
    simp [hzero] at hn
  destroyedOnce _ := by
    simp [List.count_append, (count_destroy_of_uses huses _).1]
  onlyCreated k hk := by
    have hzero := (count_destroy_of_uses huses k).1
    rw [List.count_eq_zero] at hzero
    simp [hzero] at hk
    exact ⟨h, hk⟩

theorem mem_setupCalls (nopts : ℕ) {handlers : ℕ} {x : Setting}
    (hscript : script tls options handlers = (settings (script tls options handlers)).map .ok) :
    .set nopts x ∈ setupCalls tls nopts options handlers ↔
      .ok x ∈ script tls options handlers ∨ x ∈ retrySettings options := by
  simp [setupCalls, ← mem_settings_iff hscript]

theorem set_mem_allCalls {x : Setting}
    (hscript : script tls options p.world.shared.fresh =
      (settings (script tls options p.world.shared.fresh)).map .ok) :
    .set (p.nopts nats) x ∈ p.allCalls nats tls options ↔
      .ok x ∈ script tls options p.world.shared.fresh ∨ x ∈ retrySettings options := by
  rw [← mem_setupCalls tls options (p.nopts nats) hscript]
  cases p.last <;> simp [Prior.allCalls]

theorem setCallback_not_retry (kind : Kind) (k : ℕ) :
    Setting.setCallback kind k ∉ retrySettings options := by
  unfold retrySettings
  split <;> simp

variable (nats p) in
/-- How often the calls of a returning `connect` destroy something. -/
theorem count_allCalls (k : ℕ) :
    (p.allCalls nats tls options).count (.optionsDestroy k) =
        (if p.nopts nats = k then 1 else 0) ∧
      (p.allCalls nats tls options).count (.connectionDestroy k) =
        (if p.last = some k then 1 else 0) := by
  have hzero : ((setupCalls tls (p.nopts nats) options p.world.shared.fresh).count
        (.optionsDestroy k) = 0) ∧
      ((setupCalls tls (p.nopts nats) options p.world.shared.fresh).count
        (.connectionDestroy k) = 0) :=
    count_destroy_of_uses (fun _ => uses_of_mem_setupCalls tls options _) k
  cases hlast : p.last <;> simp [Prior.allCalls, hlast, hzero, List.count_cons]

theorem last_eq_some_iff {m : ℕ} : p.last = some m ↔
    p.object.conn = some m ∧ (p.world.shared.conns.owners m).erase (.object p.o) = ∅ := by
  simp [Prior.last, Option.filter_eq_some_iff]

theorem connected_of_taken {t : Connection.State} (ht : Taken p options.engaged t)
    (hscript : script tls options p.world.shared.fresh =
      (settings (script tls options p.world.shared.fresh)).map .ok) (calls : List Call) :
    Connected nats p options (p.allCalls nats tls options)
      ⟨calls, Connection.setHandlers t p.o p.assigned p.world.shared.fresh, p.copied options⟩
      (p.world.shared.fresh + 1) p.world.shared.fresh := by
  have hprior := Connection.holding_invariant.reachable p.reached
  have hreached := ht.reached.fired (step_setHandlers p options.engaged ht)
  have hhandlers := (Connection.handlers_invariant.reachable hreached).2
  have hobject := setHandlers_objects p t
  refine ⟨hobject, ?_, ht.native, ?_, ⟨?_, ?_⟩, ?_, ?_, ?_, ?_, ?_, ?_⟩
  · by_contra hsome
    obtain ⟨y, hy⟩ := Option.ne_none_iff_exists'.mp hsome
    exact absurd (hprior.deletions.fresh hy) (by omega)
  · exact Function.update_self _ _ _
  · exact hhandlers.members.owner_iff (o := .object p.o) |>.mpr
      (Connection.handlersAt_object hobject)
  · exact hhandlers.deleter ht.native (by simp)
  · intro kind k
    rw [set_mem_allCalls tls options hscript, ok_mem_script_iff, mem_engaged,
      or_iff_left (setCallback_not_retry options kind k), Setting.From]
  · simp [Prior.allCalls, setupCalls]
  · simp [(count_allCalls nats tls p options (p.nopts nats)).1]
  · intro k hk
    by_contra hne
    have hcount := (count_allCalls nats tls p options k).1
    rw [if_neg (Ne.symm hne), List.count_eq_zero] at hcount
    exact hcount hk
  · intro m hm
    have hne : m ≠ p.world.shared.fresh + 1 := (Nat.lt_succ_of_lt (lt_fresh_of_conn p hm)).ne
    change t.conns.owners m = _
    rw [ht.conns, connected_conns, SharedHeap.owners_reset, if_pos hm, SharedHeap.owners_make,
      if_neg hne]
  · intro m
    rw [(count_allCalls nats tls p options m).2]
    simp only [last_eq_some_iff]

/-- `connect` throws and leaves everything as it was, or it returns and has
replaced the connection. -/
theorem connect_guarantee (nats : Nats) (tls : Bool) (p : Prior) (options : ConnectionOptions) :
    let outcome := (connect nats tls p.o options).outcome p.world
    ∃ made, outcome.2.calls = p.world.calls ++ made ∧
      match outcome.1 with
      | .error _ => Unchanged nats p made outcome.2
      | .ok _ => ∃ n h, Connected nats p options made outcome.2 n h := by
  intro outcome
  have hends : Ends nats tls p options outcome := connect_ends nats tls p options
  generalize outcome = result at hends
  cases hends with
  | notCreated hstatus e => exact ⟨_, rfl, unchanged_notCreated hstatus⟩
  | threw hstatus e done huses => exact ⟨_, rfl, unchanged_threw options hstatus huses _⟩
  | returned hstatus hscript t ht =>
    exact ⟨_, rfl, _, _, connected_of_taken tls options ht hscript _⟩

end Guarantee

end NatsCpp.Connect
