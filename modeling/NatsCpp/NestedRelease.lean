import Mathlib.Algebra.Order.BigOperators.Group.Finset
import Mathlib.Computability.StateTransition

/-!
# Releasing a subscription whose handler owns other subscriptions

`callback_state::mutex` is not recursive, and erasing a handler under it runs
the destructors of what the handler captures. The functions that a releasing
thread executes are expanded into effects on a stack of tasks, so that a
destructor that runs inside another call finds the mutex as that call left it.
Other threads wait for the mutex and are left out.
-/
namespace NatsCpp.NestedRelease
open StateTransition

/-- An effect that the releasing thread has still to perform. -/
inductive Task where
  | dropPointer (w : ℕ)
  | resetSub (w : ℕ)
  | releaseCallback (w : ℕ)
  | lock (k : ℕ)
  | erase (k : ℕ)
  | unlock
  | clearRelease (w : ℕ)
  | moveSub (w src : ℕ)
  | moveRelease (w src : ℕ)

/-- The map `callbacks` gives for each key the wrappers to which the handler has
shared pointers, and is `none` once the registry is gone. A release closure is
represented by its key. -/
structure State where
  callbacks : Option (ℕ → Option (List ℕ))
  useCount : ℕ → ℕ
  sub : ℕ → Bool
  onRelease : ℕ → Option ℕ
  locked : Bool
  tasks : List Task

namespace State

def entry (s : State) (k : ℕ) : Option (List ℕ) := s.callbacks.bind (· k)

def captures (s : State) (k : ℕ) : List ℕ := (s.entry k).getD []

/-- Enters a function, given by its effects. -/
def call (s : State) (ts : List Task) : State := { s with tasks := ts ++ s.tasks }

end State

/-- A shared pointer to the wrapper goes; the last one runs `~subscription`. -/
def dropPointer (s : State) (w : ℕ) : State :=
  let dropped := { s with useCount := Function.update s.useCount w (s.useCount w - 1) }
  if s.useCount w = 1 then dropped.call [.resetSub w, .releaseCallback w] else dropped

/-- `release_callback()` runs the closure, if there is one, and clears it. -/
def releaseCallback (s : State) (w : ℕ) : State :=
  match s.onRelease w with
  | none => s
  | some k => s.call [.lock k, .clearRelease w]

/-- The closure locks the mutex if the weak pointer to the registry can be
locked; the thread that holds the mutex does not get it a second time. -/
def lock (s : State) (k : ℕ) : Option State :=
  match s.callbacks with
  | none => some s
  | some _ => if s.locked then none else some ({ s with locked := true }.call [.erase k, .unlock])

/-- `callbacks.erase(key)` unlinks the handler and destroys it with its captures. -/
def erase (s : State) (k : ℕ) : State :=
  { s with callbacks := s.callbacks.map (Function.update · k none) }.call
    ((s.captures k).map .dropPointer)

def perform (s : State) : Task → Option State
  | .dropPointer w => some (dropPointer s w)
  | .resetSub w => some { s with sub := Function.update s.sub w false }
  | .releaseCallback w => some (releaseCallback s w)
  | .lock k => lock s k
  | .erase k => some (erase s k)
  | .unlock => some { s with locked := false }
  | .clearRelease w => some { s with onRelease := Function.update s.onRelease w none }
  | .moveSub w src => some { s with
      sub := Function.update (Function.update s.sub w (s.sub src)) src false }
  | .moveRelease w src => some { s with
      onRelease := Function.update (Function.update s.onRelease w (s.onRelease src)) src none }

def step (s : State) : Option State :=
  match s.tasks with
  | [] => none
  | task :: rest => perform { s with tasks := rest } task

def State.locking (s : State) : Bool :=
  match s.tasks with
  | .lock _ :: _ => true
  | _ => false

/-- The thread tries to lock the mutex that it holds. -/
def State.SelfLocks (s : State) : Prop :=
  s.locking = true ∧ s.callbacks.isSome = true ∧ s.locked = true

instance (s : State) : Decidable s.SelfLocks := inferInstanceAs (Decidable (_ ∧ _))

/-- A finite family of subscriptions, in any shape of ownership, between two
calls. The use count of a wrapper is the number of pointers to it that the
handlers have captured, added to those that others hold. -/
structure Family where
  state : State
  keys : Finset ℕ
  users : ℕ → ℕ
  idle : state.tasks = [] ∧ state.locked = false
  finite : ∀ k, state.entry k ≠ none → k ∈ keys
  counted : ∀ w, state.useCount w = users w + ∑ k ∈ keys, (state.captures k).count w

/-- The ways to release a subscription: an `unsubscribe()` whose native call
succeeds, the end of the last pointer to the wrapper, a move assignment to it. -/
inductive Release (f : Family) where
  | unsubscribe (w : ℕ) (hw : 0 < f.users w) (hsub : f.state.sub w = true)
  | destroy (w : ℕ) (hw : 0 < f.users w) (hlast : f.state.useCount w = 1)
  | moveAssign (w src : ℕ) (hw : 0 < f.users w) (hsrc : 0 < f.users src) (hne : w ≠ src)

namespace Release

variable {f : Family}

def wrapper : Release f → ℕ
  | .unsubscribe w .. | .destroy w .. | .moveAssign w .. => w

def tasks : Release f → List Task
  | .unsubscribe w .. => [.resetSub w, .releaseCallback w]
  | .destroy w .. => [.dropPointer w]
  | .moveAssign w src .. => [.releaseCallback w, .moveSub w src, .moveRelease w src]

def start (r : Release f) : State := f.state.call r.tasks

/-- The release never locks the mutex twice, and it ends with the entries of the
released wrapper and of all wrappers that it has destroyed out of the registry. -/
structure Safe (r : Release f) : Prop where
  locksOnce : ∀ t, Reaches step r.start t → ¬ t.SelfLocks
  finishes : ∃ t, Reaches step r.start t ∧ t.tasks = [] ∧ t.locked = false ∧
    ∀ w k, f.state.onRelease w = some k →
      (w = r.wrapper ∨ (0 < f.state.useCount w ∧ t.useCount w = 0)) → t.entry k = none

end Release

/-- The handler under a key is the last to own a wrapper that has a release closure. -/
def OwnsLast (s : State) (k : ℕ) : Prop :=
  ∃ w ∈ s.captures k, s.useCount w = (s.captures k).count w ∧ s.onRelease w ≠ none

section Run

variable {s t : State} {w k : ℕ} {rest : List Task}

theorem reaches_head {u : State} (ht : step s = some t) (hu : Reaches step t u) : Reaches step s u :=
  Relation.ReflTransGen.head ht hu

/-- Takes a step if there is one. -/
def advance (s : State) : State := (step s).getD s

theorem reaches_iterate (s : State) (n : ℕ) : Reaches step s (advance^[n] s) := by
  induction n with
  | zero => exact .refl
  | succ n ih =>
    rw [Function.iterate_succ_apply']
    cases hstep : step (advance^[n] s) with
    | none => rwa [advance, hstep]
    | some t =>
      rw [advance, hstep]
      exact ih.tail hstep

/-- What is left after pointers to the wrappers `ws` have gone, one after the other. -/
structure Dropped (s : State) (ws : List ℕ) (rest : List Task) (t : State) : Prop where
  tasks : t.tasks = rest
  callbacks : t.callbacks = s.callbacks
  onRelease : t.onRelease = s.onRelease
  locked : t.locked = s.locked
  useCount : ∀ w, t.useCount w = s.useCount w - ws.count w

/-- The destructor of a wrapper without a release closure. -/
theorem reaches_destructor {u : State} (htasks : s.tasks = .resetSub w :: .releaseCallback w :: rest)
    (hnone : s.onRelease w = none)
    (hu : Reaches step { s with sub := Function.update s.sub w false, tasks := rest } u) :
    Reaches step s u := by
  refine reaches_head (t := { s with
    sub := Function.update s.sub w false
    tasks := .releaseCallback w :: rest }) ?_ (reaches_head ?_ hu)
  · simp [step, htasks, perform]
  · simp [step, perform, releaseCallback, hnone]

/-- One pointer less in the use count is one pointer less to come. -/
theorem count_step {use : ℕ → ℕ} {v : ℕ} (hv : 0 < use v) (ws : List ℕ) (w : ℕ) :
    ∃ d, use w = Function.update use v (use v - 1) w + d ∧ (v :: ws).count w = ws.count w + d := by
  by_cases hw : w = v
  · subst w
    refine ⟨1, ?_, List.count_cons_self⟩
    rw [Function.update_self]
    omega
  · refine ⟨0, ?_, ?_⟩
    · rw [Function.update_of_ne hw, Nat.add_zero]
    · rw [List.count_cons_of_ne (Ne.symm hw), Nat.add_zero]

theorem step_dropPointer {v : ℕ} {ts : List Task} (htasks : s.tasks = .dropPointer v :: ts) :
    step s = some (dropPointer { s with tasks := ts } v) := by
  simp [step, htasks, perform]

/-- Captured wrappers that outlive the handler, or have no release closure, do no harm. -/
theorem reaches_dropped (ws : List ℕ) (htasks : s.tasks = ws.map .dropPointer ++ rest)
    (hcount : ∀ w ∈ ws, ws.count w ≤ s.useCount w)
    (hnone : ∀ w ∈ ws, s.useCount w = ws.count w → s.onRelease w = none) :
    ∃ t, Reaches step s t ∧ Dropped s ws rest t := by
  induction ws generalizing s with
  | nil => exact ⟨s, .refl, ⟨by simpa using htasks, rfl, rfl, rfl, by simp⟩⟩
  | cons v ws ih =>
    have hv : 0 < s.useCount v := by
      have hle := hcount v List.mem_cons_self
      rw [List.count_cons_self] at hle
      omega
    let u : State := { s with
      useCount := Function.update s.useCount v (s.useCount v - 1)
      tasks := ws.map .dropPointer ++ rest }
    have hu (w : ℕ) : ∃ d, s.useCount w = u.useCount w + d ∧ (v :: ws).count w = ws.count w + d :=
      count_step hv ws w
    have huse (w : ℕ) : u.useCount w - ws.count w = s.useCount w - (v :: ws).count w := by
      obtain ⟨d, hd, hd'⟩ := hu w
      omega
    have hcount' : ∀ w ∈ ws, ws.count w ≤ u.useCount w := by
      intro w hw
      have hle := hcount w (List.mem_cons_of_mem v hw)
      obtain ⟨d, hd, hd'⟩ := hu w
      omega
    have hnone' : ∀ w ∈ ws, u.useCount w = ws.count w → u.onRelease w = none := by
      intro w hw heq
      apply hnone w (List.mem_cons_of_mem v hw)
      obtain ⟨d, hd, hd'⟩ := hu w
      omega
    -- Whether or not the wrapper is destroyed, only its `sub_` can be different.
    suffices hreach : ∃ sub, ∀ t, Reaches step { u with sub } t → Reaches step s t by
      obtain ⟨sub, hsub⟩ := hreach
      obtain ⟨t, ht, hdropped⟩ := ih (s := { u with sub }) rfl hcount' hnone'
      exact ⟨t, hsub t ht, hdropped.tasks, hdropped.callbacks, hdropped.onRelease,
        hdropped.locked, fun w => (hdropped.useCount w).trans (huse w)⟩
    have hstep := step_dropPointer htasks
    by_cases hlast : s.useCount v = 1
    · have hrelease : s.onRelease v = none := by
        apply hnone v List.mem_cons_self
        have hle := hcount v List.mem_cons_self
        rw [List.count_cons_self] at hle ⊢
        omega
      refine ⟨Function.update s.sub v false, fun t ht => reaches_head hstep ?_⟩
      rw [dropPointer, if_pos hlast]
      exact reaches_destructor rfl hrelease ht
    · refine ⟨s.sub, fun t ht => reaches_head hstep ?_⟩
      rw [dropPointer, if_neg hlast]
      exact ht

/-- If the last pointer to a wrapper with a release closure goes while the mutex
is held, its destructor locks the mutex again. -/
theorem reaches_selfLock (ws : List ℕ) (htasks : s.tasks = ws.map .dropPointer ++ rest)
    (hcount : ∀ w ∈ ws, ws.count w ≤ s.useCount w) (hcallbacks : s.callbacks.isSome = true)
    (hlocked : s.locked = true)
    (hlast : ∃ w ∈ ws, s.useCount w = ws.count w ∧ s.onRelease w ≠ none) :
    ∃ t, Reaches step s t ∧ t.SelfLocks := by
  induction ws generalizing s with
  | nil => simp at hlast
  | cons v ws ih =>
    have hv : 0 < s.useCount v := by
      have hle := hcount v List.mem_cons_self
      rw [List.count_cons_self] at hle
      omega
    let u : State := { s with
      useCount := Function.update s.useCount v (s.useCount v - 1)
      tasks := ws.map .dropPointer ++ rest }
    have hu (w : ℕ) : ∃ d, s.useCount w = u.useCount w + d ∧ (v :: ws).count w = ws.count w + d :=
      count_step hv ws w
    have hcount' : ∀ w ∈ ws, ws.count w ≤ u.useCount w := by
      intro w hw
      have hle := hcount w (List.mem_cons_of_mem v hw)
      obtain ⟨d, hd, hd'⟩ := hu w
      omega
    have hstep := step_dropPointer htasks
    have hlater (sub : ℕ → Bool) (hsilent : s.useCount v = 1 → s.onRelease v = none) :
        ∃ t, Reaches step { u with sub } t ∧ t.SelfLocks := by
      obtain ⟨w, hw, heq, hrelease⟩ := hlast
      refine ih rfl hcount' hcallbacks hlocked ⟨w, ?_, ?_, hrelease⟩
      · rcases List.mem_cons.mp hw with rfl | hw
        · rw [List.count_cons_self] at heq
          have hne : s.useCount w ≠ 1 := fun h1 => hrelease (hsilent h1)
          exact List.count_pos_iff.mp (by omega)
        · exact hw
      · obtain ⟨d, hd, hd'⟩ := hu w
        change u.useCount w = ws.count w
        omega
    by_cases h1 : s.useCount v = 1
    · rw [dropPointer, if_pos h1] at hstep
      cases hrelease : s.onRelease v with
      | none =>
        obtain ⟨t, ht, hself⟩ := hlater (Function.update s.sub v false) fun _ => hrelease
        exact ⟨t, reaches_head hstep (reaches_destructor rfl hrelease ht), hself⟩
      | some k =>
        let d : State := { u with
          sub := Function.update s.sub v false
          tasks := .lock k :: .clearRelease v :: (ws.map .dropPointer ++ rest) }
        refine ⟨d, reaches_head hstep ?_, rfl, hcallbacks, hlocked⟩
        refine reaches_head (t := { d with
          tasks := .releaseCallback v :: (ws.map .dropPointer ++ rest) }) rfl ?_
        refine reaches_head ?_ .refl
        simp [step, perform, releaseCallback, State.call, d, u, hrelease]
    · rw [dropPointer, if_neg h1] at hstep
      obtain ⟨t, ht, hself⟩ := hlater s.sub fun heq => (h1 heq).elim
      exact ⟨t, reaches_head hstep ht, hself⟩

/-- The release closure locks the mutex and erases its entry. -/
theorem reaches_erase (htasks : s.tasks = .releaseCallback w :: rest) (hlocked : s.locked = false)
    (hcallbacks : s.callbacks.isSome = true) (hk : s.onRelease w = some k) :
    Reaches step s { s with
      callbacks := s.callbacks.map (Function.update · k none)
      locked := true
      tasks := (s.captures k).map .dropPointer ++ .unlock :: .clearRelease w :: rest } := by
  obtain ⟨f, hf⟩ := Option.isSome_iff_exists.mp hcallbacks
  let t₁ : State := { s with tasks := .lock k :: .clearRelease w :: rest }
  let t₂ : State := { s with
    locked := true
    tasks := .erase k :: .unlock :: .clearRelease w :: rest }
  have h₁ : step s = some t₁ := by
    simp [step, htasks, perform, releaseCallback, hk, State.call, t₁]
  have h₂ : step t₁ = some t₂ := by
    simp [step, perform, lock, hf, hlocked, State.call, t₁, t₂]
  refine reaches_head h₁ (reaches_head h₂ (reaches_head ?_ .refl))
  simp [step, perform, erase, State.call, State.captures, State.entry, t₂]

/-- What is left after `release_callback()` of the wrapper `w`. -/
structure Released (s : State) (w : ℕ) (rest : List Task) (t : State) : Prop where
  tasks : t.tasks = rest
  locked : t.locked = false
  erased : ∀ k, s.onRelease w = some k → t.entry k = none
  useCount : ∀ v, t.useCount v = s.useCount v - ((s.onRelease w).elim [] s.captures).count v

theorem reaches_released (htasks : s.tasks = .releaseCallback w :: rest) (hlocked : s.locked = false)
    (hcount : ∀ k, ∀ v ∈ s.captures k, (s.captures k).count v ≤ s.useCount v)
    (hsafe : ∀ k, s.onRelease w = some k → ¬ OwnsLast s k) :
    ∃ t, Reaches step s t ∧ Released s w rest t := by
  cases hk : s.onRelease w with
  | none =>
    refine ⟨{ s with tasks := rest }, reaches_head ?_ .refl, rfl, hlocked, ?_, ?_⟩
    · simp [step, htasks, perform, releaseCallback, hk]
    · simp [hk]
    · simp [hk]
  | some k =>
    have hcapture : (s.onRelease w).elim [] s.captures = s.captures k := by rw [hk, Option.elim_some]
    cases hcallbacks : s.callbacks with
    | none =>
      have hentry (j : ℕ) : s.entry j = none := by simp [State.entry, hcallbacks]
      let t : State := { s with tasks := .clearRelease w :: rest }
      refine ⟨{ t with onRelease := Function.update s.onRelease w none, tasks := rest },
        reaches_head (t := { s with tasks := .lock k :: .clearRelease w :: rest }) ?_
          (reaches_head (t := t) ?_ (reaches_head rfl .refl)), rfl, hlocked, fun j _ => hentry j, ?_⟩
      · simp [step, htasks, perform, releaseCallback, hk, State.call]
      · simp [step, perform, lock, hcallbacks, t]
      · intro v
        rw [hcapture, State.captures, hentry]
        simp [t]
    | some f =>
      have herase := reaches_erase htasks hlocked (by simp [hcallbacks]) hk
      obtain ⟨t, ht, hdropped⟩ := reaches_dropped (s.captures k) (s := { s with
          callbacks := s.callbacks.map (Function.update · k none)
          locked := true
          tasks := (s.captures k).map .dropPointer ++ .unlock :: .clearRelease w :: rest }) rfl
        (hcount k) fun v hv heq => by
          by_contra hne
          exact hsafe k hk ⟨v, hv, heq, hne⟩
      let u : State := { t with
        locked := false
        tasks := .clearRelease w :: rest }
      refine ⟨{ u with onRelease := Function.update u.onRelease w none, tasks := rest },
        herase.trans (ht.trans (reaches_head (t := u) ?_ (reaches_head rfl .refl))), rfl, rfl, ?_, ?_⟩
      · simp [step, hdropped.tasks, perform, u]
      · intro j hj
        obtain rfl := Option.some.inj (hk.symm.trans hj)
        simp [State.entry, u, hdropped.callbacks, hcallbacks]
      · intro v
        rw [hcapture]
        exact hdropped.useCount v

theorem reaches_selfLock_of_ownsLast (htasks : s.tasks = .releaseCallback w :: rest)
    (hlocked : s.locked = false)
    (hcount : ∀ k, ∀ v ∈ s.captures k, (s.captures k).count v ≤ s.useCount v)
    (hk : s.onRelease w = some k) (hlast : OwnsLast s k) :
    ∃ t, Reaches step s t ∧ t.SelfLocks := by
  have hcallbacks : s.callbacks.isSome = true := by
    obtain ⟨v, hv, _⟩ := hlast
    cases hnone : s.callbacks with
    | none => simp [State.captures, State.entry, hnone] at hv
    | some f => rfl
  obtain ⟨t, ht, hself⟩ := reaches_selfLock (s.captures k) (s := { s with
      callbacks := s.callbacks.map (Function.update · k none)
      locked := true
      tasks := (s.captures k).map .dropPointer ++ .unlock :: .clearRelease w :: rest }) rfl
    (hcount k) (by simpa using hcallbacks) rfl hlast
  exact ⟨t, (reaches_erase htasks hlocked hcallbacks hk).trans ht, hself⟩

end Run

namespace Family

variable (f : Family) {v k : ℕ}

theorem count_le : f.users v + (f.state.captures k).count v ≤ f.state.useCount v := by
  rw [f.counted]
  by_cases hk : f.state.entry k = none
  · simp [State.captures, hk]
  · have hmem : k ∈ f.keys := f.finite k hk
    have hle := Finset.single_le_sum (f := fun j => (f.state.captures j).count v)
      (fun _ _ => Nat.zero_le _) hmem
    omega

theorem captures_count_le : (f.state.captures k).count v ≤ f.state.useCount v :=
  (Nat.le_add_left _ _).trans f.count_le

end Family

namespace Release

variable {f : Family}

/-- The state in which a release comes to `release_callback()`; what follows it
changes neither the registry nor the use counts. -/
structure Entered (r : Release f) (rest : List Task) (u : State) : Prop where
  reached : Reaches step r.start u
  tasks : u.tasks = .releaseCallback r.wrapper :: rest
  locked : u.locked = false
  callbacks : u.callbacks = f.state.callbacks
  onRelease : u.onRelease = f.state.onRelease
  useCount : ∀ v, v ≠ r.wrapper → u.useCount v = f.state.useCount v
  spared : ∀ k, r.wrapper ∈ f.state.captures k →
    u.useCount r.wrapper = f.state.useCount r.wrapper ∧
      (f.state.captures k).count r.wrapper < f.state.useCount r.wrapper
  rest : ∀ t, t.tasks = rest → ∃ t', Reaches step t t' ∧ t'.tasks = [] ∧ t'.locked = t.locked ∧
    t'.callbacks = t.callbacks ∧ t'.useCount = t.useCount

theorem exists_entered (r : Release f) : ∃ rest u, r.Entered rest u := by
  obtain ⟨htasks, hlocked⟩ := f.idle
  have hspared {w : ℕ} (hw : 0 < f.users w) (k : ℕ) :
      (f.state.captures k).count w < f.state.useCount w := by
    have hle := f.count_le (v := w) (k := k)
    omega
  cases r with
  | unsubscribe w hw hsub =>
    refine ⟨[], { f.state with
      sub := Function.update f.state.sub w false
      tasks := [.releaseCallback w] }, reaches_head ?_ .refl, rfl, hlocked, rfl, rfl,
      fun _ _ => rfl, fun k _ => ⟨rfl, hspared hw k⟩, fun t ht => ⟨t, .refl, ht, rfl, rfl, rfl⟩⟩
    simp [start, Release.tasks, State.call, step, perform, htasks]
  | destroy w hw hlast =>
    let u : State := { f.state with
      useCount := Function.update f.state.useCount w 0
      tasks := [.resetSub w, .releaseCallback w] }
    refine ⟨[], { u with
      sub := Function.update f.state.sub w false
      tasks := [.releaseCallback w] }, reaches_head (t := u) ?_ (reaches_head rfl .refl), rfl, hlocked,
      rfl, rfl, ?_, ?_, fun t ht => ⟨t, .refl, ht, rfl, rfl, rfl⟩⟩
    · simp [start, Release.tasks, State.call, step, perform, dropPointer, htasks, hlast, u]
    · exact fun v hv => Function.update_of_ne hv _ _
    · intro k hk
      have hpos : 0 < (f.state.captures k).count w := List.count_pos_iff.mpr hk
      have hlt := hspared hw k
      omega
  | moveAssign w src hw hsrc hne =>
    refine ⟨[.moveSub w src, .moveRelease w src], { f.state with
      tasks := [.releaseCallback w, .moveSub w src, .moveRelease w src] }, ?_, rfl, hlocked, rfl, rfl,
      fun _ _ => rfl, fun k _ => ⟨rfl, hspared hw k⟩, ?_⟩
    · rw [start, State.call, htasks]
      exact .refl
    · intro t ht
      let t' : State := { t with
        sub := Function.update (Function.update t.sub w (t.sub src)) src false
        tasks := [.moveRelease w src] }
      have hstep : step t = some t' := by simp [step, ht, perform, t']
      exact ⟨_, reaches_head hstep (reaches_head rfl .refl), rfl, rfl, rfl, rfl⟩

namespace Entered

variable {r : Release f} {rest : List Task} {u : State} (h : r.Entered rest u)
include h

theorem captures_eq : u.captures = f.state.captures := by
  funext k
  simp [State.captures, State.entry, h.callbacks]

theorem useCount_of_captured {v k : ℕ} (hv : v ∈ f.state.captures k) :
    u.useCount v = f.state.useCount v := by
  by_cases hvw : v = r.wrapper
  · subst v
    exact (h.spared k hv).1
  · exact h.useCount v hvw

theorem count_le (k : ℕ) : ∀ v ∈ u.captures k, (u.captures k).count v ≤ u.useCount v := by
  intro v hv
  rw [h.captures_eq] at hv ⊢
  rw [h.useCount_of_captured hv]
  exact f.captures_count_le

theorem ownsLast_iff (k : ℕ) : OwnsLast u k ↔ OwnsLast f.state k := by
  unfold OwnsLast
  rw [h.captures_eq, h.onRelease]
  refine exists_congr fun v => and_congr_right fun hv => ?_
  rw [h.useCount_of_captured hv]

/-- A release that does not hang leaves the entries of what it destroys erased. -/
theorem finishes (hsafe : ∀ k, f.state.onRelease r.wrapper = some k → ¬ OwnsLast f.state k) :
    ∃ t, Reaches step r.start t ∧ t.tasks = [] ∧ t.locked = false ∧
      ∀ w k, f.state.onRelease w = some k →
        (w = r.wrapper ∨ (0 < f.state.useCount w ∧ t.useCount w = 0)) → t.entry k = none := by
  have hsafe' (k : ℕ) (hk : u.onRelease r.wrapper = some k) : ¬ OwnsLast u k := by
    rw [h.ownsLast_iff]
    exact hsafe k (h.onRelease ▸ hk)
  obtain ⟨t, ht, hreleased⟩ := reaches_released h.tasks h.locked h.count_le hsafe'
  obtain ⟨t', ht', htasks, hlocked, hcallbacks, huse⟩ := h.rest t hreleased.tasks
  refine ⟨t', h.reached.trans (ht.trans ht'), htasks, hlocked.trans hreleased.locked, ?_⟩
  intro w k hk hw
  rw [State.entry, hcallbacks]
  by_cases hwrapper : w = r.wrapper
  · subst w
    exact hreleased.erased k (h.onRelease ▸ hk)
  · obtain ⟨hpos, hzero⟩ := hw.resolve_left hwrapper
    rw [huse, hreleased.useCount, h.useCount w hwrapper] at hzero
    cases hreleaseKey : u.onRelease r.wrapper with
    | none =>
      simp only [hreleaseKey, Option.elim_none, List.count_nil] at hzero
      omega
    | some j =>
      simp only [hreleaseKey, Option.elim_some, h.captures_eq] at hzero
      have hmem : w ∈ f.state.captures j := List.count_pos_iff.mp (by omega)
      have hle := f.captures_count_le (v := w) (k := j)
      have heq : f.state.useCount w = (f.state.captures j).count w := by omega
      exact (hsafe j (h.onRelease ▸ hreleaseKey) ⟨w, hmem, heq, by simp [hk]⟩).elim

end Entered

theorem step_of_selfLocks {s : State} (h : s.SelfLocks) : step s = none := by
  obtain ⟨hlocking, hcallbacks, hlocked⟩ := h
  obtain ⟨f, hf⟩ := Option.isSome_iff_exists.mp hcallbacks
  unfold State.locking at hlocking
  split at hlocking
  · rename_i k rest htasks
    simp [step, htasks, perform, lock, hf, hlocked]
  · contradiction

/-- From a state without a successor only that state is reached. -/
theorem eq_of_reaches {s t : State} (hs : step s = none) (ht : Reaches step s t) : t = s := by
  induction ht with
  | refl => rfl
  | tail _ hlast ih =>
    rw [ih, Option.mem_def, hs] at hlast
    contradiction

/-- A release locks the mutex once and does all it has to do, exactly if the
handler that it erases is not the last owner of a wrapper with a release closure. -/
theorem safe_iff (r : Release f) :
    r.Safe ↔ ∀ k, f.state.onRelease r.wrapper = some k → ¬ OwnsLast f.state k := by
  obtain ⟨rest, u, h⟩ := r.exists_entered
  constructor
  · intro hsafe k hk hlast
    obtain ⟨t, ht, hself⟩ := reaches_selfLock_of_ownsLast h.tasks h.locked h.count_le
      (h.onRelease ▸ hk) ((h.ownsLast_iff k).mpr hlast)
    exact hsafe.locksOnce t (h.reached.trans ht) hself
  · intro hsafe
    refine ⟨?_, h.finishes hsafe⟩
    intro t ht hself
    obtain ⟨t', ht', htasks, -⟩ := h.finishes hsafe
    have hdone : step t' = none := by simp [step, htasks]
    have heq : t' = t := by
      rcases reaches_total ht ht' with hreach | hreach
      · exact eq_of_reaches (step_of_selfLocks hself) hreach
      · exact (eq_of_reaches hdone hreach).symm
    rw [heq] at htasks
    simp [State.SelfLocks, State.locking, htasks] at hself

end Release

/-- Two subscriptions, the second of which is owned by the handler of the first. -/
def capturedWrapper : Family where
  state :=
    { callbacks := some fun k => if k = 0 then some [1] else if k = 1 then some [] else none
      useCount := fun w => if w ≤ 1 then 1 else 0
      sub := fun w => decide (w ≤ 1)
      onRelease := fun w => if w ≤ 1 then some w else none
      locked := false
      tasks := [] }
  keys := {0, 1}
  users := fun w => if w = 0 then 1 else 0
  idle := ⟨rfl, rfl⟩
  finite := by
    intro k hk
    by_contra hne
    simp only [Finset.mem_insert, Finset.mem_singleton, not_or] at hne
    simp [State.entry, hne] at hk
  counted := by
    intro w
    by_cases h0 : w = 0
    · subst w
      simp [State.captures, State.entry]
    · by_cases h1 : w = 1
      · subst w
        simp [State.captures, State.entry]
      · have hgt : ¬ w ≤ 1 := by omega
        simp [State.captures, State.entry, h0, hgt, Ne.symm h1]

/-- The first is unsubscribed: erasing its handler destroys the second wrapper,
whose release closure locks the mutex again. -/
theorem unsubscribeCapturing_not_safe :
    ¬ (Release.unsubscribe (f := capturedWrapper) 0 (by decide) (by decide)).Safe := by
  intro h
  have hself : (advance^[7] (Release.unsubscribe (f := capturedWrapper) 0 (by decide)
      (by decide)).start).SelfLocks := by
    decide
  exact h.locksOnce _ (reaches_iterate _ 7) hself

end NatsCpp.NestedRelease
