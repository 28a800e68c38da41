import NatsCpp.SubscriptionModel
import Mathlib.Tactic.SplitIfs

/-!
# What one step of the subscription machine can do

Invariants read wrappers through four views, so that a step is described by how
it changes these. `Fires` lists the effects behind all actions with the facts
that enable them; every preservation proof is one case analysis over it.
-/
namespace NatsCpp.Subscription

/-- The wrapper whose members a running move assignment takes. -/
def Pc.source : Pc → Option ℕ
  | .assignRelease src | .assignSub src | .assignRest src => some src
  | _ => none

namespace Wrappers

variable (f : Wrappers) (w v : ℕ) (x : Option Wrapper)

def pcOf : Option Pc := (f w).map (·.pc)

def lentOf : Bool := (f w).any (·.lent)

def sourceOf : Option ℕ := (f w).bind (·.pc.source)

def subOf : Option ℕ := (f w).bind (·.sub)

/-- The registry key that the wrapper's release closure captures. -/
def keyOf : Option ℕ := (f w).bind (·.onRelease)

def completionsOf : Finset ℕ := (f w).elim ∅ (·.completionCallbacks)

@[simp] theorem pcOf_update :
    pcOf (Function.update f w x) v = if v = w then x.map (·.pc) else f.pcOf v := by
  simp only [pcOf, Function.update_apply]
  split_ifs <;> rfl

@[simp] theorem lentOf_update :
    lentOf (Function.update f w x) v = if v = w then x.any (·.lent) else f.lentOf v := by
  simp only [lentOf, Function.update_apply]
  split_ifs <;> rfl

@[simp] theorem sourceOf_update :
    sourceOf (Function.update f w x) v = if v = w then x.bind (·.pc.source) else f.sourceOf v := by
  simp only [sourceOf, Function.update_apply]
  split_ifs <;> rfl

@[simp] theorem subOf_update :
    subOf (Function.update f w x) v = if v = w then x.bind (·.sub) else f.subOf v := by
  simp only [subOf, Function.update_apply]
  split_ifs <;> rfl

@[simp] theorem keyOf_update :
    keyOf (Function.update f w x) v = if v = w then x.bind (·.onRelease) else f.keyOf v := by
  simp only [keyOf, Function.update_apply]
  split_ifs <;> rfl

@[simp] theorem completionsOf_update : completionsOf (Function.update f w x) v =
    if v = w then x.elim ∅ (·.completionCallbacks) else f.completionsOf v := by
  simp only [completionsOf, Function.update_apply]
  split_ifs <;> rfl

section Some

variable {f w} {y : Wrapper} (hy : f w = some y)
include hy

theorem pcOf_of_some : f.pcOf w = some y.pc := by simp [pcOf, hy]

theorem lentOf_of_some : f.lentOf w = y.lent := by simp [lentOf, hy]

theorem sourceOf_of_some : f.sourceOf w = y.pc.source := by simp [sourceOf, hy]

theorem subOf_of_some : f.subOf w = y.sub := by simp [subOf, hy]

theorem keyOf_of_some : f.keyOf w = y.onRelease := by simp [keyOf, hy]

theorem completionsOf_of_some : f.completionsOf w = y.completionCallbacks := by
  simp [completionsOf, hy]

end Some

section UpdateTwo

variable {f w} {src : ℕ} {x x' y y' : Wrapper} (hx : f w = some x) (hy : f src = some y)
include hx hy

/-- Two wrappers change, but not what is read of them. -/
theorem view_updateTwo {β : Type} (view : Option Wrapper → β) (h : view (some x') = view (some x))
    (h' : view (some y') = view (some y)) :
    view (Function.update (Function.update f w (some x')) src (some y') v) = view (f v) := by
  simp only [Function.update_apply]
  split_ifs with h1 h2
  · rw [h1, hy, h']
  · rw [h2, hx, h]
  · rfl

theorem subOf_updateTwo (h : x'.sub = x.sub) (h' : y'.sub = y.sub) :
    subOf (Function.update (Function.update f w (some x')) src (some y')) v = f.subOf v :=
  view_updateTwo v hx hy (·.bind (·.sub)) h h'

theorem keyOf_updateTwo (h : x'.onRelease = x.onRelease) (h' : y'.onRelease = y.onRelease) :
    keyOf (Function.update (Function.update f w (some x')) src (some y')) v = f.keyOf v :=
  view_updateTwo v hx hy (·.bind (·.onRelease)) h h'

theorem completionsOf_updateTwo (h : x'.completionCallbacks = x.completionCallbacks)
    (h' : y'.completionCallbacks = y.completionCallbacks) :
    completionsOf (Function.update (Function.update f w (some x')) src (some y')) v =
      f.completionsOf v :=
  view_updateTwo v hx hy (·.elim ∅ (·.completionCallbacks)) h h'

end UpdateTwo

end Wrappers

namespace State

variable (s : State) (o : Option ℕ)

@[simp] theorem destroyNative_callbacks : (s.destroyNative o).callbacks = s.callbacks := by
  cases o <;> rfl

@[simp] theorem destroyNative_functions : (s.destroyNative o).functions = s.functions := by
  cases o <;> rfl

@[simp] theorem destroyNative_registrations :
    (s.destroyNative o).registrations = s.registrations := by
  cases o <;> rfl

@[simp] theorem destroyNative_wrappers : (s.destroyNative o).wrappers = s.wrappers := by
  cases o <;> rfl

@[simp] theorem destroyNative_deliveries : (s.destroyNative o).deliveries = s.deliveries := by
  cases o <;> rfl

@[simp] theorem destroyNative_fresh : (s.destroyNative o).fresh = s.fresh := by
  cases o <;> rfl

theorem destroyNative_natives (n : ℕ) : (s.destroyNative o).natives n =
    if o = some n then (s.natives n).map fun y => { y with phase := .destroyed, closed := true }
    else s.natives n := by
  cases o with
  | none => rfl
  | some m =>
    by_cases hn : n = m
    · subst n
      simp [destroyNative]
    · simp [destroyNative, hn, Ne.symm hn]

end State

namespace Natives

variable (g : Natives) (n m : ℕ)

def phaseOf : Option Phase := (g n).map (·.phase)

def handlerOf : Option Closure := (g n).bind (·.handler)

@[simp] theorem phaseOf_update (x : Option Native) : phaseOf (Function.update g n x) m =
    if m = n then x.map (·.phase) else g.phaseOf m := by
  simp only [phaseOf, Function.update_apply]
  split_ifs <;> rfl

@[simp] theorem handlerOf_update (x : Option Native) : handlerOf (Function.update g n x) m =
    if m = n then x.bind (·.handler) else g.handlerOf m := by
  simp only [handlerOf, Function.update_apply]
  split_ifs <;> rfl

end Natives

namespace State

variable (s : State) (n m : ℕ) (o : Option ℕ)

theorem phaseOf_mapNative {f : Native → Native} (hf : ∀ y, (f y).phase = y.phase) :
    (s.mapNative n f).natives.phaseOf m = s.natives.phaseOf m := by
  simp only [mapNative_natives, Natives.phaseOf_update, Option.map_map, Function.comp_def, hf]
  split_ifs with hm
  · rw [hm, Natives.phaseOf]
  · rfl

theorem handlerOf_mapNative {f : Native → Native} (hf : ∀ y, (f y).handler = y.handler) :
    (s.mapNative n f).natives.handlerOf m = s.natives.handlerOf m := by
  simp only [mapNative_natives, Natives.handlerOf_update, Option.bind_map, Function.comp_def, hf]
  split_ifs with hm
  · rw [hm, Natives.handlerOf]
  · rfl

theorem phaseOf_destroyNative : (s.destroyNative o).natives.phaseOf m =
    if o = some m then (s.natives.phaseOf m).map fun _ => .destroyed else s.natives.phaseOf m := by
  simp only [Natives.phaseOf, destroyNative_natives]
  split_ifs
  · rw [Option.map_map, Option.map_map]
    rfl
  · rfl

@[simp] theorem handlerOf_destroyNative :
    (s.destroyNative o).natives.handlerOf m = s.natives.handlerOf m := by
  cases o with
  | none => rfl
  | some n => exact handlerOf_mapNative s n m fun _ => rfl

end State

@[simp] theorem resetSub_wrappers (s : State) (w : ℕ) (x : Wrapper) :
    (resetSub s w x).wrappers = Function.update s.wrappers w (some { x with sub := none }) := by
  rw [resetSub, State.setWrapper_wrappers, State.destroyNative_wrappers]

@[simp] theorem takeSub_wrappers (s : State) (w src : ℕ) (x y : Wrapper) :
    (takeSub s w src x y).wrappers =
      Function.update (Function.update s.wrappers w (some { x with sub := y.sub })) src
        (some { y with sub := none }) := by
  simp only [takeSub, State.setWrapper_wrappers, State.destroyNative_wrappers]

/-- `release_callback` only touches the wrapper's key, and the registry if there is one. -/
@[simp] theorem releaseCallback_wrappers (s : State) (w : ℕ) (x : Wrapper) :
    (releaseCallback s w x).wrappers = Function.update s.wrappers w (some { x with onRelease := none }) := by
  unfold releaseCallback
  split
  · rename_i hkey
    rw [← hkey]
    rfl
  · rfl

/-- `release_callback` is the next effect, and the `Pc` after it. -/
def Pc.afterRelease : Pc → Option Pc
  | .unsubRelease => some .idle
  | .dtorRelease => some .dtorEnd
  | .assignRelease src => some (.assignSub src)
  | _ => none

/-- `sub_.reset()` is the next effect, and the `Pc` after it. -/
def Pc.afterReset : Pc → Option Pc
  | .unsubReset => some .unsubRelease
  | .dtorReset => some .dtorRelease
  | _ => none

/-- The effects behind the actions, each with the facts that enable it. -/
inductive Fires (s : State) : Action → State → Prop where
  | skip (a : Action) : Fires s a s
  | insertCallback {c a : ℕ} (hc : s.registrations c = none) (ha : s.functions.value a = none) :
      Fires s (.registerInsert c a) (insertCallback s c a)
  | enterSubscribe {c n : ℕ} {token : Closure}
      (hc : s.registrations c = some ⟨token, .inserted⟩) (hn : s.natives n = none) :
      Fires s (.subscribeBegin c n) (enterSubscribe s c n token)
  | returnSubscription {c w n : ℕ} {token : Closure}
      (hc : s.registrations c = some ⟨token, .subscribing n⟩) (hw : s.wrappers w = none) :
      Fires s (.subscribeOk c w) (returnSubscription s c w n token)
  | failSubscribe {c n : ℕ} {token : Closure}
      (hc : s.registrations c = some ⟨token, .subscribing n⟩) :
      Fires s (.subscribeFail c) (failSubscribe s c n token)
  | undoInsert {c : ℕ} {token : Closure} (hc : s.registrations c = some ⟨token, .failed⟩) :
      Fires s (.registerErase c) (undoInsert s c token)
  | dropToken {c : ℕ} {token : Closure} (hc : s.registrations c = some ⟨token, .erased⟩) :
      Fires s (.registerThrow c) (dropToken s c token)
  | constructEmpty {w : ℕ} (hw : s.wrappers w = none) :
      Fires s (.construct w none) (s.setWrapper w (some ⟨none, none, ∅, .idle, false⟩))
  | constructSync {w n : ℕ} (hw : s.wrappers w = none) (hn : s.natives n = none) :
      Fires s (.construct w (some n)) ((s.setNative n ⟨.active, none, false, none, false⟩).setWrapper w
        (some ⟨some n, none, ∅, .idle, false⟩))
  | moveMembers {w src : ℕ} {y : Wrapper} (hw : s.wrappers w = none)
      (hy : s.wrappers src = some y) (hidle : y.idle) :
      Fires s (.moveConstruct w src) (moveMembers s w src y)
  | beginUnsubscribe {w : ℕ} {x : Wrapper} (hx : s.wrappers w = some x) (hidle : x.idle) :
      Fires s (.unsubscribe w) (s.setWrapper w (some { x with pc := .unsubscribing }))
  | beginDestroy {w : ℕ} {x : Wrapper} (hx : s.wrappers w = some x) (hidle : x.idle) :
      Fires s (.destroy w) (s.setWrapper w (some { x with pc := .dtorReset }))
  | beginAssign {w src : ℕ} {x y : Wrapper} (hx : s.wrappers w = some x)
      (hy : s.wrappers src = some y) (hidle : x.idle) (hidle' : y.idle) (hne : w ≠ src) :
      Fires s (.moveAssign w src)
        ((s.setWrapper w (some { x with pc := .assignRelease src })).setWrapper src
          (some { y with lent := true }))
  | drained {w n : ℕ} {x : Wrapper} (hx : s.wrappers w = some x) (hsub : x.sub = some n) :
      Fires s (.drain w) (s.closeNative n)
  | insertCompletion {w a n : ℕ} {x : Wrapper} (hx : s.wrappers w = some x) (hidle : x.idle)
      (ha : s.functions.value a = none) (hsub : x.sub = some n) :
      Fires s (.setOnCompleteCallback w a) (insertCompletion s w a x)
  | unsubscribed {w n : ℕ} {x : Wrapper} (hx : s.wrappers w = some x)
      (hpc : x.pc = .unsubscribing) (hsub : x.sub = some n) :
      Fires s (.advance w true) ((s.closeNative n).setWrapper w (some { x with pc := .unsubReset }))
  | unsubscribeThrow {w : ℕ} {ok : Bool} {x : Wrapper} (hx : s.wrappers w = some x)
      (hpc : x.pc = .unsubscribing) :
      Fires s (.advance w ok) (s.setWrapper w (some { x with pc := .idle }))
  | resetSub {w : ℕ} {ok : Bool} {x : Wrapper} {p : Pc} (hx : s.wrappers w = some x)
      (hp : x.pc.afterReset = some p) :
      Fires s (.advance w ok) (resetSub s w { x with pc := p })
  | releaseCallback {w : ℕ} {ok : Bool} {x : Wrapper} {p : Pc} (hx : s.wrappers w = some x)
      (hp : x.pc.afterRelease = some p) :
      Fires s (.advance w ok) (releaseCallback s w { x with pc := p })
  | endLifetime {w : ℕ} {ok : Bool} {x : Wrapper} (hx : s.wrappers w = some x)
      (hpc : x.pc = .dtorEnd) : Fires s (.advance w ok) (endLifetime s w x)
  | takeSub {w src : ℕ} {ok : Bool} {x y : Wrapper} (hx : s.wrappers w = some x)
      (hpc : x.pc = .assignSub src) (hy : s.wrappers src = some y) :
      Fires s (.advance w ok) (takeSub s w src { x with pc := .assignRest src } y)
  | takeRest {w src : ℕ} {ok : Bool} {x y : Wrapper} (hx : s.wrappers w = some x)
      (hpc : x.pc = .assignRest src) (hy : s.wrappers src = some y) :
      Fires s (.advance w ok) (takeRest s w src { x with pc := .idle } y)
  | setOnCompleteCB {w : ℕ} {ok : Bool} {x : Wrapper} {k : Closure} (hx : s.wrappers w = some x)
      (hpc : x.pc = .installing k) : Fires s (.advance w ok) (setOnCompleteCB s w x k ok)
  | pruneOthers {w a : ℕ} {ok : Bool} {x : Wrapper} (hx : s.wrappers w = some x)
      (hpc : x.pc = .pruning a) :
      Fires s (.advance w ok) (pruneOthers s w { x with pc := .idle } a)
  | eraseToken {w a : ℕ} {ok : Bool} {x : Wrapper} (hx : s.wrappers w = some x)
      (hpc : x.pc = .erasing a) :
      Fires s (.advance w ok) (eraseToken s w { x with pc := .idle } a)
  | deliver {d n m : ℕ} {y : Native} {token : Closure} (hn : s.natives n = some y)
      (hphase : y.phase ≠ .destroyed) (htoken : y.handler = some token) :
      Fires s (.deliver d n (some m)) (s.setDelivery d (some ⟨token, false⟩))
  | callHandler {d : ℕ} {token : Closure} (hd : s.deliveries d = some ⟨token, false⟩) :
      Fires s (.callHandler d) (s.setDelivery d (some ⟨token, true⟩))
  | returnHandler {d : ℕ} : Fires s (.returnHandler d) (s.setDelivery d none)
  | complete {n : ℕ} {y : Native} {k : Closure} (hn : s.natives n = some y) (hclosed : y.closed = true)
      (hk : y.onComplete = some k) (hdone : y.completed = false) :
      Fires s (.complete n) (s.mapNative n fun x => { x with completed := true })

theorem enter_eq_some {s t : State} {w : ℕ} {f : Wrapper → State} (h : enter s w f = some t) :
    ∃ x, s.wrappers w = some x ∧ x.idle ∧ t = f x := by
  unfold enter at h
  split at h
  · rename_i x hx
    split at h
    · rename_i hidle
      exact ⟨x, hx, hidle, (Option.some.inj h).symm⟩
    · contradiction
  · contradiction

theorem fires_of_advance {s t : State} {w : ℕ} {ok : Bool} (h : advance s w ok = some t) :
    Fires s (.advance w ok) t := by
  unfold advance at h
  split at h
  · contradiction
  rename_i x hx
  cases hpc : x.pc <;> simp only [hpc] at h
  case idle => contradiction
  case unsubscribing =>
    split at h
    · rename_i hsub
      exact Option.some.inj h ▸ .unsubscribed hx hpc hsub
    · exact Option.some.inj h ▸ .unsubscribeThrow hx hpc
  case unsubReset => exact Option.some.inj h ▸ .resetSub hx (by simp [hpc, Pc.afterReset])
  case unsubRelease => exact Option.some.inj h ▸ .releaseCallback hx (by simp [hpc, Pc.afterRelease])
  case dtorReset => exact Option.some.inj h ▸ .resetSub hx (by simp [hpc, Pc.afterReset])
  case dtorRelease => exact Option.some.inj h ▸ .releaseCallback hx (by simp [hpc, Pc.afterRelease])
  case dtorEnd => exact Option.some.inj h ▸ .endLifetime hx hpc
  case assignRelease src =>
    exact Option.some.inj h ▸ .releaseCallback hx (by simp [hpc, Pc.afterRelease])
  case assignSub src =>
    obtain ⟨y, hy, rfl⟩ := Option.map_eq_some_iff.mp h
    exact .takeSub hx hpc hy
  case assignRest src =>
    obtain ⟨y, hy, rfl⟩ := Option.map_eq_some_iff.mp h
    exact .takeRest hx hpc hy
  case installing k => exact Option.some.inj h ▸ .setOnCompleteCB hx hpc
  case pruning a => exact Option.some.inj h ▸ .pruneOthers hx hpc
  case erasing a => exact Option.some.inj h ▸ .eraseToken hx hpc

theorem fires_of_construct {s t : State} {w : ℕ} {raw : Option ℕ}
    (h : construct s w raw = some t) : Fires s (.construct w raw) t := by
  unfold construct at h
  split at h
  · contradiction
  · rename_i hw
    exact Option.some.inj h ▸ .constructEmpty hw
  · rename_i n hw
    split at h
    · contradiction
    · rename_i hn
      exact Option.some.inj h ▸ .constructSync hw hn

theorem fires_of_moveAssign {s t : State} {w src : ℕ} (h : moveAssign s w src = some t) :
    Fires s (.moveAssign w src) t := by
  unfold moveAssign at h
  split at h
  · rename_i x y hx hy
    split at h
    · rename_i hidle
      split at h
      · exact Option.some.inj h ▸ .skip _
      · rename_i hne
        exact Option.some.inj h ▸ .beginAssign hx hy hidle.1 hidle.2 hne
    · contradiction
  · contradiction

theorem fires_of_deliver {s t : State} {d n : ℕ} {msg : Option ℕ} (h : deliver s d n msg = some t) :
    Fires s (.deliver d n msg) t := by
  unfold deliver at h
  split at h
  · rename_i hn _
    split at h
    · contradiction
    · rename_i hphase
      cases msg with
      | none => exact Option.some.inj h ▸ .skip _
      | some m => exact Option.some.inj h ▸ .deliver hn hphase rfl
  · contradiction

/-- Every step of the machine is one of the listed effects. -/
theorem fires_of_step {s t : State} {a : Action} (h : step s a = some t) : Fires s a t := by
  cases a with
  | registerInsert c a =>
    simp only [step, registerInsert, Option.isNone_iff_eq_none] at h
    split at h
    · rename_i hfree
      exact Option.some.inj h ▸ .insertCallback hfree.1 hfree.2
    · contradiction
  | subscribeBegin c n =>
    simp only [step, subscribeBegin] at h
    split at h
    · rename_i hc hn
      exact Option.some.inj h ▸ .enterSubscribe hc hn
    · contradiction
  | subscribeOk c w =>
    simp only [step, subscribeOk] at h
    split at h
    · rename_i hc hw
      exact Option.some.inj h ▸ .returnSubscription hc hw
    · contradiction
  | subscribeFail c =>
    simp only [step, subscribeFail] at h
    split at h
    · rename_i hc
      exact Option.some.inj h ▸ .failSubscribe hc
    · contradiction
  | registerErase c =>
    simp only [step, registerErase] at h
    split at h
    · rename_i hc
      exact Option.some.inj h ▸ .undoInsert hc
    · contradiction
  | registerThrow c =>
    simp only [step, registerThrow] at h
    split at h
    · rename_i hc
      exact Option.some.inj h ▸ .dropToken hc
    · contradiction
  | construct w raw => exact fires_of_construct h
  | moveConstruct w src =>
    simp only [step, moveConstruct] at h
    split at h
    · rename_i y hw hy
      split at h
      · rename_i hidle
        exact Option.some.inj h ▸ .moveMembers hw hy hidle
      · contradiction
    · contradiction
  | unsubscribe w =>
    obtain ⟨x, hx, hidle, rfl⟩ := enter_eq_some h
    cases hsub : x.sub with
    | none => exact .skip _
    | some n => simpa only [hsub] using Fires.beginUnsubscribe hx hidle
  | destroy w =>
    obtain ⟨x, hx, hidle, rfl⟩ := enter_eq_some h
    exact .beginDestroy hx hidle
  | moveAssign w src => exact fires_of_moveAssign h
  | drain w =>
    obtain ⟨x, hx, hidle, rfl⟩ := enter_eq_some h
    cases hsub : x.sub with
    | none => exact .skip _
    | some n => exact .drained hx hsub
  | setOnCompleteCallback w a =>
    simp only [step, setOnCompleteCallback] at h
    split at h
    · contradiction
    · rename_i ha
      obtain ⟨x, hx, hidle, rfl⟩ := enter_eq_some h
      cases hsub : x.sub with
      | none => exact .skip _
      | some n => exact .insertCompletion hx hidle (by simpa using ha) hsub
  | advance w ok => exact fires_of_advance h
  | deliver d n msg => exact fires_of_deliver h
  | callHandler d =>
    simp only [step, callHandler] at h
    split at h
    · rename_i hd
      exact Option.some.inj h ▸ .callHandler hd
    · contradiction
  | returnHandler d =>
    simp only [step, returnHandler] at h
    split at h
    · exact Option.some.inj h ▸ .returnHandler
    · contradiction
  | complete n =>
    simp only [step, complete] at h
    split at h
    · rename_i hn
      exact Option.some.inj h ▸ .complete hn rfl rfl rfl
    · contradiction

end NatsCpp.Subscription
