import NatsCpp.Machine
import Mathlib.Data.Nat.Notation
import Mathlib.Logic.Function.Basic
import Mathlib.Tactic.SplitIfs

/-!
# `future_awaitable`

All copies of an awaitable share one `shared_state`, with the future and the
flag `alive`. `await_suspend` starts a detached worker; the worker and the
destructors of the copies race for the flag. An awaited copy lives in the frame
of the coroutine that awaits it, which is freed after the copy is destroyed.
-/
namespace NatsCpp.FutureAwaitable

/-- A copy of the awaitable; `freed` once the coroutine frame it lived in is gone too. -/
inductive Copy where
  | present
  | destroyed
  | freed
  deriving DecidableEq

/-- The next effect of a worker, or how it has ended. -/
inductive Pc where
  | waiting
  | claiming
  | resuming
  | lost
  | resumed
  deriving DecidableEq

/-- A thread started by `await_suspend` on `copy`, with the handle of the
coroutine whose frame has that copy. -/
structure Worker where
  copy : ℕ
  pc : Pc
  deriving DecidableEq

/-- The worker thread has run to its end. -/
def Worker.Ended (x : Worker) : Prop := x.pc = .lost ∨ x.pc = .resumed

/-- The `compare_exchange_strong` of the worker has succeeded. -/
def Pc.claimed : Pc → Bool
  | .resuming | .resumed => true
  | _ => false

/-- The `compare_exchange_strong` of the worker is behind it. -/
def Pc.decided : Pc → Bool
  | .resuming | .lost | .resumed => true
  | _ => false

structure State where
  ready : Bool
  alive : Bool
  copies : ℕ → Option Copy
  workers : ℕ → Option Worker
  resumes : ℕ

/-- The awaitable has just been constructed from its future, as copy 0. -/
def initial : State where
  ready := false
  alive := true
  copies := Function.update (fun _ => none) 0 (some .present)
  workers := fun _ => none
  resumes := 0

/-- The implicit copy constructor; a move is a copy. -/
def copyConstruct (s : State) (c src : ℕ) : Option State :=
  match s.copies c, s.copies src with
  | none, some .present => some { s with copies := Function.update s.copies c (some .present) }
  | _, _ => none

def becomeReady (s : State) : Option State :=
  if s.ready then none else some { s with ready := true }

/-- `~future_awaitable`: `alive.exchange(false)`. -/
def destroy (s : State) (c : ℕ) : Option State :=
  match s.copies c with
  | some .present => some { s with
      alive := false
      copies := Function.update s.copies c (some .destroyed) }
  | _ => none

/-- The frame of the coroutine that has awaited `c` is freed. -/
def freeFrame (s : State) (c : ℕ) : Option State :=
  match s.copies c with
  | some .destroyed => some { s with copies := Function.update s.copies c (some .freed) }
  | _ => none

/-- `await_suspend(h)` starts the detached thread. -/
def awaitSuspend (s : State) (w c : ℕ) : Option State :=
  match s.workers w, s.copies c with
  | none, some .present => some { s with
      workers := Function.update s.workers w (some ⟨c, .waiting⟩) }
  | _, _ => none

/-- `s->fut.wait()` returns. -/
def waitReturns (s : State) (w : ℕ) : Option State :=
  match s.workers w with
  | some ⟨c, .waiting⟩ =>
    if s.ready then some { s with workers := Function.update s.workers w (some ⟨c, .claiming⟩) }
    else none
  | _ => none

/-- `s->alive.compare_exchange_strong(expected, false)` with `expected = true`. -/
def compareExchange (s : State) (w : ℕ) : Option State :=
  match s.workers w with
  | some ⟨c, .claiming⟩ => some { s with
      alive := false
      workers := Function.update s.workers w
        (some ⟨c, if s.alive then .resuming else .lost⟩) }
  | _ => none

/-- `h.resume()`. -/
def resume (s : State) (w : ℕ) : Option State :=
  match s.workers w with
  | some ⟨c, .resuming⟩ => some { s with
      workers := Function.update s.workers w (some ⟨c, .resumed⟩)
      resumes := s.resumes + 1 }
  | _ => none

inductive Action where
  | copyConstruct (c src : ℕ)
  | becomeReady
  | destroy (c : ℕ)
  | freeFrame (c : ℕ)
  | awaitSuspend (w c : ℕ)
  | waitReturns (w : ℕ)
  | compareExchange (w : ℕ)
  | resume (w : ℕ)

def step (s : State) : Action → Option State
  | .copyConstruct c src => copyConstruct s c src
  | .becomeReady => becomeReady s
  | .destroy c => destroy s c
  | .freeFrame c => freeFrame s c
  | .awaitSuspend w c => awaitSuspend s w c
  | .waitReturns w => waitReturns s w
  | .compareExchange w => compareExchange s w
  | .resume w => resume s w

def machine : Machine State Action := ⟨initial, step⟩

/-- What each action changes, with the facts that enable it. -/
inductive Fires (s : State) : Action → State → Prop where
  | copyConstruct {c src : ℕ} (hc : s.copies c = none) (hsrc : s.copies src = some .present) :
      Fires s (.copyConstruct c src) { s with
        copies := Function.update s.copies c (some .present) }
  | becomeReady : Fires s .becomeReady { s with ready := true }
  | destroy {c : ℕ} (hc : s.copies c = some .present) : Fires s (.destroy c) { s with
      alive := false
      copies := Function.update s.copies c (some .destroyed) }
  | freeFrame {c : ℕ} (hc : s.copies c = some .destroyed) : Fires s (.freeFrame c) { s with
      copies := Function.update s.copies c (some .freed) }
  | awaitSuspend {w c : ℕ} (hw : s.workers w = none) (hc : s.copies c = some .present) :
      Fires s (.awaitSuspend w c) { s with
        workers := Function.update s.workers w (some ⟨c, .waiting⟩) }
  | waitReturns {w c : ℕ} (hw : s.workers w = some ⟨c, .waiting⟩) (hready : s.ready = true) :
      Fires s (.waitReturns w) { s with
        workers := Function.update s.workers w (some ⟨c, .claiming⟩) }
  | claim {w c : ℕ} (hw : s.workers w = some ⟨c, .claiming⟩) (halive : s.alive = true) :
      Fires s (.compareExchange w) { s with
        alive := false
        workers := Function.update s.workers w (some ⟨c, .resuming⟩) }
  | lose {w c : ℕ} (hw : s.workers w = some ⟨c, .claiming⟩) (halive : s.alive = false) :
      Fires s (.compareExchange w) { s with
        alive := false
        workers := Function.update s.workers w (some ⟨c, .lost⟩) }
  | resume {w c : ℕ} (hw : s.workers w = some ⟨c, .resuming⟩) : Fires s (.resume w) { s with
      workers := Function.update s.workers w (some ⟨c, .resumed⟩)
      resumes := s.resumes + 1 }

theorem fires_of_step {s t : State} {a : Action} (ht : step s a = some t) : Fires s a t := by
  cases a with
  | copyConstruct c src =>
    simp only [step, copyConstruct] at ht
    split at ht
    · rename_i hc hsrc
      exact Option.some.inj ht ▸ .copyConstruct hc hsrc
    · contradiction
  | becomeReady =>
    simp only [step, becomeReady] at ht
    split at ht
    · contradiction
    · exact Option.some.inj ht ▸ .becomeReady
  | destroy c =>
    simp only [step, destroy] at ht
    split at ht
    · rename_i hc
      exact Option.some.inj ht ▸ .destroy hc
    · contradiction
  | freeFrame c =>
    simp only [step, freeFrame] at ht
    split at ht
    · rename_i hc
      exact Option.some.inj ht ▸ .freeFrame hc
    · contradiction
  | awaitSuspend w c =>
    simp only [step, awaitSuspend] at ht
    split at ht
    · rename_i hw hc
      exact Option.some.inj ht ▸ .awaitSuspend hw hc
    · contradiction
  | waitReturns w =>
    simp only [step, waitReturns] at ht
    split at ht
    · rename_i c hw
      split at ht
      · rename_i hready
        exact Option.some.inj ht ▸ .waitReturns hw hready
      · contradiction
    · contradiction
  | compareExchange w =>
    simp only [step, compareExchange] at ht
    split at ht
    · rename_i c hw
      cases halive : s.alive with
      | true =>
        simp only [halive, if_true, Option.some.injEq] at ht
        exact ht ▸ .claim hw halive
      | false =>
        simp only [halive, Bool.false_eq_true, if_false, Option.some.injEq] at ht
        exact ht ▸ .lose hw halive
    · contradiction
  | resume w =>
    simp only [step, resume] at ht
    split at ht
    · rename_i c hw
      exact Option.some.inj ht ▸ .resume hw
    · contradiction

/-- What every run keeps: no worker has decided while the flag is up, at most one
has claimed, and `h.resume()` was called as often as workers say. -/
structure Claims (s : State) : Prop where
  dead : ∀ {c}, s.copies c = some .destroyed ∨ s.copies c = some .freed → s.alive = false
  undecided : ∀ {w x}, s.alive = true → s.workers w = some x → x.pc.decided = false
  unique : ∀ {w v x y}, s.workers w = some x → s.workers v = some y → x.pc.claimed = true →
    y.pc.claimed = true → w = v
  none : (∀ w x, s.workers w = some x → x.pc ≠ .resumed) → s.resumes = 0
  one : ∀ {w x}, s.workers w = some x → x.pc = .resumed → s.resumes = 1

namespace Claims

variable {s t : State}

/-- Steps of copies, and of the future, that leave the workers alone. -/
theorem frame (h : Claims s) (hworkers : t.workers = s.workers) (hresumes : t.resumes = s.resumes)
    (halive : t.alive = true → s.alive = true)
    (hdead : ∀ {c}, t.copies c = some .destroyed ∨ t.copies c = some .freed → t.alive = false) :
    Claims t where
  dead := hdead
  undecided ha hw := h.undecided (halive ha) (hworkers ▸ hw)
  unique hw hv := h.unique (hworkers ▸ hw) (hworkers ▸ hv)
  none hall := by
    rw [hresumes]
    exact h.none fun w x hw => hall w x (hworkers.symm ▸ hw)
  one hw hx := by
    rw [hresumes]
    exact h.one (hworkers ▸ hw) hx

/-- The worker `w` goes on. -/
theorem worker (h : Claims s) {w : ℕ} {x' : Worker}
    (hworkers : t.workers = Function.update s.workers w (some x')) (hcopies : t.copies = s.copies)
    (halive : t.alive = true → s.alive = true ∧ x'.pc.decided = false)
    (hclaimed : x'.pc.claimed = true → ∀ v y, s.workers v = some y → y.pc.claimed = true → v = w)
    (hkeep : ∀ x, s.workers w = some x → x.pc ≠ .resumed)
    (hresumes : (x'.pc = .resumed ∧ t.resumes = 1) ∨
      (x'.pc ≠ .resumed ∧ t.resumes = s.resumes)) : Claims t := by
  have hold {v : ℕ} {y : Worker} (hv : t.workers v = some y) :
      (v = w ∧ y = x') ∨ (v ≠ w ∧ s.workers v = some y) := by
    rw [hworkers, Function.update_apply] at hv
    split_ifs at hv with hvw
    · exact .inl ⟨hvw, (Option.some.inj hv).symm⟩
    · exact .inr ⟨hvw, hv⟩
  constructor
  · intro c hc
    cases hta : t.alive with
    | false => rfl
    | true =>
      rw [hcopies] at hc
      have hdead := h.dead hc
      rw [(halive hta).1] at hdead
      contradiction
  · intro v y hta hv
    rcases hold hv with ⟨_, rfl⟩ | ⟨_, hv⟩
    · exact (halive hta).2
    · exact h.undecided (halive hta).1 hv
  · intro v v' y y' hv hv' hy hy'
    rcases hold hv with ⟨hvw, rfl⟩ | ⟨_, hv⟩ <;> rcases hold hv' with ⟨hvw', rfl⟩ | ⟨_, hv'⟩
    · exact hvw.trans hvw'.symm
    · exact hvw.trans (hclaimed hy v' y' hv' hy').symm
    · exact (hclaimed hy' v y hv hy).trans hvw'.symm
    · exact h.unique hv hv' hy hy'
  · intro hall
    have hne := hall w x' (by rw [hworkers, Function.update_self])
    rcases hresumes with ⟨heq, _⟩ | ⟨_, hsame⟩
    · exact (hne heq).elim
    · rw [hsame]
      apply h.none
      intro v y hv hy
      have hvw : v ≠ w := by
        rintro rfl
        exact hkeep y hv hy
      exact hall v y (by rw [hworkers, Function.update_of_ne hvw, hv]) hy
  · intro v y hv hy
    rcases hold hv with ⟨_, rfl⟩ | ⟨_, hv⟩
    · rcases hresumes with ⟨_, hone⟩ | ⟨hne, _⟩
      · exact hone
      · exact (hne hy).elim
    · rcases hresumes with ⟨_, hone⟩ | ⟨_, hsame⟩
      · exact hone
      · rw [hsame]
        exact h.one hv hy

theorem step {a : Action} (h : Claims s) (ht : step s a = some t) : Claims t := by
  -- The copies other than `c`, and `c` itself in its new state.
  have hcopies {c d : ℕ} {x : Copy} {P : Prop} (hnew : x ≠ .present → P)
      (hold : s.copies d = some .destroyed ∨ s.copies d = some .freed → P)
      (hd : Function.update s.copies c (some x) d = some .destroyed ∨
        Function.update s.copies c (some x) d = some .freed) : P := by
    rw [Function.update_apply] at hd
    split_ifs at hd
    · exact hnew (by rcases hd with hd | hd <;> simp [Option.some.inj hd])
    · exact hold hd
  have hundecided {w : ℕ} {x : Worker} {pc : Pc} (hw : s.workers w = some x) (hpc : x.pc = pc)
      (hne : pc ≠ .resumed) (y : Worker) (hy : s.workers w = some y) : y.pc ≠ .resumed := by
    rw [hw] at hy
    rwa [← Option.some.inj hy, hpc]
  cases fires_of_step ht with
  | copyConstruct => exact h.frame rfl rfl id (hcopies (by simp) h.dead)
  | becomeReady => exact h.frame rfl rfl id h.dead
  | destroy => exact h.frame rfl rfl (by simp) fun _ => rfl
  | freeFrame hc => exact h.frame rfl rfl id (hcopies (fun _ => h.dead (.inl hc)) h.dead)
  | awaitSuspend hw =>
    exact h.worker rfl rfl (fun ha => ⟨ha, rfl⟩) (by simp [Pc.claimed]) (by simp [hw])
      (.inr ⟨by simp, rfl⟩)
  | waitReturns hw =>
    exact h.worker rfl rfl (fun ha => ⟨ha, rfl⟩) (by simp [Pc.claimed])
      (hundecided hw rfl (by simp)) (.inr ⟨by simp, rfl⟩)
  | @claim w c hw halive =>
    refine h.worker rfl rfl (by simp) ?_ (hundecided hw rfl (by simp)) (.inr ⟨by simp, rfl⟩)
    intro _ v y hv hy
    have hdecided := h.undecided halive hv
    cases hpc : y.pc <;> simp [hpc, Pc.claimed, Pc.decided] at hy hdecided
  | lose hw =>
    exact h.worker rfl rfl (by simp) (by simp [Pc.claimed]) (hundecided hw rfl (by simp))
      (.inr ⟨by simp, rfl⟩)
  | @resume w c hw =>
    have hclaimed (v : ℕ) (y : Worker) (hv : s.workers v = some y) (hy : y.pc.claimed = true) :
        v = w := h.unique hv hw hy rfl
    have hzero : s.resumes = 0 := by
      apply h.none
      intro v y hv hy
      obtain rfl := hclaimed v y hv (by rw [hy]; rfl)
      rw [← Option.some.inj (hw.symm.trans hv)] at hy
      contradiction
    refine h.worker rfl rfl ?_ (fun _ => hclaimed) (hundecided hw rfl (by simp))
      (.inl ⟨rfl, by simp [hzero]⟩)
    intro ha
    have hdecided := h.undecided ha hw
    contradiction

end Claims

theorem claims_invariant : machine.Invariant Machine.Free Claims where
  init := by
    constructor
    · intro c hc
      simp only [machine, initial, Function.update_apply] at hc
      split_ifs at hc <;> simp at hc
    all_goals simp [machine, initial]
  step h _ ht := h.step ht

/-! ## The frame of the coroutine that is resumed -/

/-- Every `h.resume()` that may be executed now finds its coroutine frame. -/
def FramesAlive (s : State) : Prop :=
  ∀ w, (step s (.resume w)).isSome = true → ∀ x, s.workers w = some x →
    s.copies x.copy ≠ some .freed

/-- No frame is freed while a worker is between its successful `compare_exchange`
and `h.resume()` for that frame. -/
def KeepsClaimedFrames (s : State) : Action → Prop
  | .freeFrame c => ∀ w x, s.workers w = some x → x.pc = .resuming → x.copy ≠ c
  | _ => True

theorem framesAlive_iff (s : State) : FramesAlive s ↔
    ∀ w x, s.workers w = some x → x.pc = .resuming → s.copies x.copy ≠ some .freed := by
  refine forall_congr' fun w => ?_
  cases hw : s.workers w with
  | none => simp [step, resume, hw]
  | some x =>
    obtain ⟨c, pc⟩ := x
    cases pc <;> simp [step, resume, hw]

/-- A worker that goes on to something else than `h.resume()` is no concern of the frames. -/
theorem framesAlive_worker {s t : State} {w : ℕ} {x : Worker} (h : FramesAlive s)
    (hworkers : t.workers = Function.update s.workers w (some x)) (hcopies : t.copies = s.copies)
    (hx : x.pc = .resuming → s.copies x.copy ≠ some .freed) : FramesAlive t := by
  rw [framesAlive_iff] at h ⊢
  intro v y hv hy
  rw [hworkers, Function.update_apply] at hv
  rw [hcopies]
  split_ifs at hv
  · obtain rfl := Option.some.inj hv
    exact hx hy
  · exact h v y hv hy

theorem framesAlive_step_iff {s t : State} {a : Action} (hc : Claims s) (h : FramesAlive s)
    (ht : step s a = some t) : FramesAlive t ↔ KeepsClaimedFrames s a := by
  have hframe {c : ℕ} {x : Copy} (hx : x ≠ .freed) (d : ℕ) (hd : s.copies d ≠ some .freed) :
      Function.update s.copies c (some x) d ≠ some .freed := by
    rw [Function.update_apply]
    split_ifs
    · simpa using hx
    · exact hd
  cases fires_of_step ht with
  | copyConstruct | destroy =>
    refine iff_of_true ?_ trivial
    rw [framesAlive_iff] at h ⊢
    exact fun w x hw hx => hframe (by simp) _ (h w x hw hx)
  | becomeReady =>
    refine iff_of_true ?_ trivial
    rwa [framesAlive_iff] at h ⊢
  | @freeFrame c hd =>
    rw [framesAlive_iff] at h ⊢
    refine forall_congr' fun w => forall_congr' fun x => imp_congr_right fun hw =>
      imp_congr_right fun hx => ?_
    have hold := h w x hw hx
    by_cases hxc : x.copy = c
    · simp [hxc]
    · simpa [hxc] using hold
  | awaitSuspend => exact iff_of_true (framesAlive_worker h rfl rfl (by simp)) trivial
  | waitReturns => exact iff_of_true (framesAlive_worker h rfl rfl (by simp)) trivial
  | @claim w c hw halive =>
    refine iff_of_true (framesAlive_worker h rfl rfl ?_) trivial
    intro _ hfreed
    have hdead := hc.dead (.inr hfreed)
    rw [halive] at hdead
    contradiction
  | lose => exact iff_of_true (framesAlive_worker h rfl rfl (by simp)) trivial
  | resume => exact iff_of_true (framesAlive_worker h rfl rfl (by simp)) trivial

/-- In a run `h.resume()` always finds the coroutine frame, whenever it may be
executed, exactly if no frame is freed while a worker is between its successful
`compare_exchange` and `h.resume()` for it. -/
theorem framesAlive_throughout_iff (as : List Action) :
    machine.Throughout FramesAlive machine.init as ↔
      machine.Respects KeepsClaimedFrames machine.init as := by
  refine claims_invariant.throughout_iff ?_ claims_invariant.init ?_ as
  · intro s a t hc h ht
    exact framesAlive_step_iff hc h ht
  · rw [framesAlive_iff]
    simp [machine, initial]

/-- The worker claims the right to resume, and then the suspended coroutine is destroyed. -/
def destroyAfterClaim : List Action :=
  [.awaitSuspend 0 0, .becomeReady, .waitReturns 0, .compareExchange 0, .destroy 0, .freeFrame 0]

/-- The worker resumes a freed coroutine. -/
theorem destroyAfterClaim_not_alive :
    ¬ machine.Throughout FramesAlive machine.init destroyAfterClaim := by
  intro h
  have hrun : (machine.run machine.init destroyAfterClaim).map (fun s =>
      ((step s (.resume 0)).isSome, s.workers 0, s.copies 0)) =
        some (true, some ⟨0, .resuming⟩, some .freed) := by
    decide
  obtain ⟨s, hs, hview⟩ := Option.map_eq_some_iff.mp hrun
  obtain ⟨hstep, hw, hfreed⟩ : (step s (.resume 0)).isSome = true ∧
      s.workers 0 = some ⟨0, .resuming⟩ ∧ s.copies 0 = some .freed := by simpa using hview
  exact (h.of_run hs) 0 hstep _ hw hfreed

/-! ## Wake-ups -/

/-- The right to resume is still to be had, or a worker has it. -/
def Claimable (s : State) : Prop :=
  s.alive = true ∨ ∃ w x, s.workers w = some x ∧ x.pc.claimed = true

/-- A copy is destroyed only after some worker's `compare_exchange`. -/
def DestroysAfterExchange (s : State) : Action → Prop
  | .destroy _ => ∃ w x, s.workers w = some x ∧ x.pc.decided = true
  | _ => True

theorem claimable_step_iff {s t : State} {a : Action} (hc : Claims s) (ht : step s a = some t) :
    Claimable t ↔ Claimable s ∧ DestroysAfterExchange s a := by
  -- A worker that claims neither before nor after the step changes nothing.
  have hworker {w : ℕ} {x : Worker} (hx : x.pc.claimed = false)
      (hw : ∀ y, s.workers w = some y → y.pc.claimed = false) :
      (∃ v y, Function.update s.workers w (some x) v = some y ∧ y.pc.claimed = true) ↔
        ∃ v y, s.workers v = some y ∧ y.pc.claimed = true := by
    refine exists_congr fun v => ?_
    by_cases hv : v = w
    · subst v
      simp only [Function.update_self, Option.some.injEq, exists_eq_left', hx, Bool.false_eq_true,
        false_iff, not_exists, not_and, Bool.not_eq_true]
      exact hw
    · simp [hv]
  have hsame (y : Worker) {w : ℕ} {x : Worker} (hw : s.workers w = some x)
      (hx : x.pc.claimed = false) (hy : s.workers w = some y) : y.pc.claimed = false := by
    rwa [← Option.some.inj (hw.symm.trans hy)]
  cases fires_of_step ht with
  | copyConstruct | becomeReady | freeFrame => simp [Claimable, DestroysAfterExchange]
  | destroy =>
    simp only [Claimable, Bool.false_eq_true, false_or, DestroysAfterExchange]
    constructor
    · rintro ⟨w, x, hw, hx⟩
      refine ⟨.inr ⟨w, x, hw, hx⟩, w, x, hw, ?_⟩
      cases hpc : x.pc <;> simp [hpc, Pc.claimed, Pc.decided] at hx ⊢
    · rintro ⟨halive | hclaimed, w, x, hw, hx⟩
      · rw [hc.undecided halive hw] at hx
        contradiction
      · exact hclaimed
  | awaitSuspend hw =>
    simp only [Claimable, DestroysAfterExchange, and_true]
    rw [hworker rfl (by simp [hw])]
  | waitReturns hw =>
    simp only [Claimable, DestroysAfterExchange, and_true]
    rw [hworker rfl fun y => hsame y hw rfl]
  | @claim w c hw halive =>
    refine iff_of_true (.inr ⟨w, _, Function.update_self .., rfl⟩) ⟨.inl halive, trivial⟩
  | lose hw halive =>
    simp only [Claimable, DestroysAfterExchange, and_true, halive]
    rw [hworker rfl fun y => hsame y hw rfl]
  | @resume w c hw =>
    refine iff_of_true (.inr ⟨w, _, Function.update_self .., rfl⟩) ⟨.inr ⟨w, _, hw, rfl⟩, trivial⟩

/-- In a run with one `await_suspend`, whose worker has run to its end, the
coroutine was resumed exactly once if and only if no copy of the awaitable was
destroyed before the worker's `compare_exchange`. -/
theorem resumes_eq_one_iff {as : List Action} {t : State} {w : ℕ} {x : Worker}
    (ht : machine.run machine.init as = some t) (hw : t.workers w = some x) (hended : x.Ended)
    (hsole : ∀ v, t.workers v ≠ none → v = w) :
    t.resumes = 1 ↔ machine.Respects DestroysAfterExchange machine.init as := by
  have hclaims : Claims t := claims_invariant.run claims_invariant.init ht
  have hclaimable := claims_invariant.run_iff claimable_step_iff claims_invariant.init ht
  have hinit : Claimable machine.init := .inl rfl
  rw [← and_iff_right (a := Claimable machine.init) (b := machine.Respects _ _ _) hinit,
    ← hclaimable]
  have hdecided : t.alive = false := by
    cases halive : t.alive with
    | false => rfl
    | true =>
      have hundecided := hclaims.undecided halive hw
      rcases hended with hpc | hpc <;> simp [hpc, Pc.decided] at hundecided
  constructor
  · intro hone
    right
    by_contra hnone
    have hzero : t.resumes = 0 := by
      apply hclaims.none
      intro v y hv hy
      exact hnone ⟨v, y, hv, by rw [hy]; rfl⟩
    omega
  · rintro (halive | ⟨v, y, hv, hy⟩)
    · rw [hdecided] at halive
      contradiction
    · obtain rfl := hsole v (by simp [hv])
      obtain rfl := Option.some.inj (hw.symm.trans hv)
      rcases hended with hpc | hpc
      · simp [hpc, Pc.claimed] at hy
      · exact hclaims.one hw hpc

/-- The coroutine is resumed and then destroys its copy. -/
def awaitThenDestroy : List Action :=
  [.awaitSuspend 0 0, .becomeReady, .waitReturns 0, .compareExchange 0, .resume 0, .destroy 0]

theorem resumes_awaitThenDestroy : ∃ t, machine.run machine.init awaitThenDestroy = some t ∧
    (t.resumes = 1 ↔ machine.Respects DestroysAfterExchange machine.init awaitThenDestroy) := by
  obtain ⟨t, ht, hw, hsole⟩ : ∃ t, machine.run machine.init awaitThenDestroy = some t ∧
      t.workers 0 = some ⟨0, .resumed⟩ ∧ ∀ v, t.workers v ≠ none → v = 0 := by
    refine ⟨_, rfl, rfl, fun v hv => ?_⟩
    by_contra hne
    simp [hne, machine, initial] at hv
  exact ⟨t, ht, resumes_eq_one_iff ht hw (.inr rfl) hsole⟩

/-- A copy is made, the original is destroyed, and the copy is awaited. -/
def moveThenAwait : List Action :=
  [.copyConstruct 1 0, .destroy 0, .awaitSuspend 0 1, .becomeReady, .waitReturns 0,
    .compareExchange 0]

/-- The awaited copy is still there, the worker has run to its end, and nobody was resumed. -/
theorem moveThenAwait_not_resumed : ∃ t, machine.run machine.init moveThenAwait = some t ∧
    t.ready = true ∧ t.workers 0 = some ⟨1, .lost⟩ ∧ (∀ v, t.workers v ≠ none → v = 0) ∧
      t.copies 1 = some .present ∧ t.resumes ≠ 1 := by
  refine ⟨_, rfl, rfl, rfl, fun v hv => ?_, rfl, by decide⟩
  by_contra hne
  simp [hne, machine, initial] at hv

/-! ## At most one claim -/

section Order

variable {s t : State} {a : Action} {as : List Action} {w : ℕ} {x : Worker}

/-- The action is the `h.resume()` of a worker. -/
def Action.isResume : Action → Bool
  | .resume _ => true
  | _ => false

theorem resumes_step (ht : step s a = some t) :
    t.resumes = s.resumes + if a.isResume then 1 else 0 := by
  cases fires_of_step ht <;> rfl

theorem resumes_run (ht : machine.run s as = some t) :
    t.resumes = s.resumes + as.countP Action.isResume := by
  induction as generalizing s with
  | nil =>
    simp only [Machine.run, Option.some.injEq] at ht
    simp [ht]
  | cons a as ih =>
    obtain ⟨u, hu, hut⟩ := Option.bind_eq_some_iff.mp ht
    have hstep := resumes_step hu
    have hrest := ih hut
    rw [List.countP_cons]
    omega

theorem Claims.resumes_le (h : Claims s) : s.resumes ≤ 1 := by
  by_cases hall : ∀ w x, s.workers w = some x → x.pc ≠ .resumed
  · have hzero := h.none hall
    omega
  · simp only [not_forall, ne_eq, Decidable.not_not] at hall
    obtain ⟨w, x, hw, hx⟩ := hall
    have hone := h.one hw hx
    omega

/-- The flag is not raised again. -/
theorem alive_step (hs : s.alive = false) (ht : step s a = some t) : t.alive = false := by
  cases fires_of_step ht <;> first | exact hs | rfl

/-- A worker that has run to its end does nothing more. -/
theorem ended_step (hs : s.workers w = some x) (hx : x.Ended) (ht : step s a = some t) :
    t.workers w = some x := by
  have hother {v : ℕ} {y : Option Worker} (hv : ∀ z, s.workers v = some z → ¬ z.Ended) :
      Function.update s.workers v y w = some x := by
    have hwv : w ≠ v := fun hwv => hv x (hwv ▸ hs) hx
    rw [Function.update_of_ne hwv, hs]
  have hrunning {v : ℕ} {y z : Worker} (hv : s.workers v = some y) (hy : ¬ y.Ended)
      (hz : s.workers v = some z) : ¬ z.Ended := by
    rwa [← Option.some.inj (hv.symm.trans hz)]
  cases fires_of_step ht with
  | copyConstruct | becomeReady | destroy | freeFrame => exact hs
  | awaitSuspend hv => exact hother fun z hz => by simp [hv] at hz
  | waitReturns hv | claim hv | lose hv | resume hv =>
    exact hother fun z => hrunning hv (by simp [Worker.Ended])

/-- The states around an action of a run, and what the action changes. -/
theorem fires_of_run {before after : List Action}
    (ht : machine.run s (before ++ a :: after) = some t) :
    ∃ u v, machine.run s before = some u ∧ Fires u a v ∧ machine.run v after = some t := by
  obtain ⟨u, v, hu, hv, hvt⟩ := Machine.run_split ht
  exact ⟨u, v, hu, fires_of_step hv, hvt⟩

theorem ended_idle (hs : s.workers w = some x) (hx : x.Ended) :
    ¬ Fires s (.resume w) t ∧ ¬ Fires s (.compareExchange w) t := by
  have hpc {c : ℕ} {pc : Pc} (hw : s.workers w = some ⟨c, pc⟩) : pc = .lost ∨ pc = .resumed := by
    obtain rfl := Option.some.inj (hs.symm.trans hw)
    exact hx
  constructor
  · intro hfires
    cases hfires with
    | resume hw => simpa using hpc hw
  · intro hfires
    cases hfires with
    | claim hw | lose hw => simpa using hpc hw

theorem ended_run (hs : s.workers w = some x) (hx : x.Ended) (ht : machine.run s as = some t) :
    t.workers w = some x :=
  Machine.run_keeps (I := fun s => s.workers w = some x) (fun hs => ended_step hs hx) hs ht

/-- After the end of a worker it does not resume. -/
theorem resume_not_mem_of_ended (hs : s.workers w = some x) (hx : x.Ended)
    (ht : machine.run s as = some t) : .resume w ∉ as := by
  intro hmem
  obtain ⟨before, after, rfl⟩ := List.append_of_mem hmem
  obtain ⟨u, v, hu, hfires, -⟩ := fires_of_run ht
  exact (ended_idle (ended_run hs hx hu) hx).1 hfires

/-- Before its `compare_exchange` a worker does not resume either. -/
theorem resume_not_mem_of_compareExchange (ht : machine.run s as = some t) {u : State}
    (hu : Fires t (.compareExchange w) u) : .resume w ∉ as := by
  intro hmem
  obtain ⟨before, after, rfl⟩ := List.append_of_mem hmem
  obtain ⟨r, v, -, hfires, hvt⟩ := fires_of_run ht
  have hend : ∃ c, v.workers w = some ⟨c, .resumed⟩ := by
    cases hfires with
    | resume hw => exact ⟨_, Function.update_self ..⟩
  obtain ⟨c, hend⟩ := hend
  exact (ended_idle (ended_run hend (.inr rfl) hvt) (.inr rfl)).2 hu

/-- A worker whose `compare_exchange` comes after the exchange of some destructor does not
resume. -/
theorem resume_not_mem_of_precedes {c : ℕ} (ht : machine.run s as = some t)
    (has : Machine.Precedes (.destroy c) (.compareExchange w) as) : .resume w ∉ as := by
  obtain ⟨before, between, after, rfl⟩ := has
  obtain ⟨u, v, hu, hfires, hvt⟩ := fires_of_run ht
  have hdead : u.alive = false := by
    obtain ⟨r, q, -, hdestroy, hqu⟩ := fires_of_run hu
    have hdestroyed : q.alive = false := by
      cases hdestroy
      rfl
    exact Machine.run_keeps (I := fun s => s.alive = false) alive_step hdestroyed hqu
  have hlost : ∃ d, v.workers w = some ⟨d, .lost⟩ := by
    cases hfires with
    | claim hw halive => simp [hdead] at halive
    | lose hw => exact ⟨_, Function.update_self ..⟩
  obtain ⟨d, hlost⟩ := hlost
  intro hmem
  rcases List.mem_append.mp hmem with hbefore | hafter
  · exact resume_not_mem_of_compareExchange hu hfires hbefore
  · rcases List.mem_cons.mp hafter with heq | hafter
    · contradiction
    · exact resume_not_mem_of_ended hlost (.inl rfl) hvt hafter

/-! ### The future -/

/-- A worker gets past its wait only when the future is ready. -/
def WaitsForReady (s : State) : Prop :=
  ∀ w x, s.workers w = some x → x.pc ≠ .waiting → s.ready = true

theorem waitsForReady_step (hs : WaitsForReady s) (ht : step s a = some t) : WaitsForReady t := by
  cases fires_of_step ht with
  | copyConstruct | destroy | freeFrame => exact hs
  | becomeReady => exact fun _ _ _ _ => rfl
  | awaitSuspend =>
    intro w x hw hx
    change Function.update s.workers _ _ w = some x at hw
    rw [Function.update_apply] at hw
    split_ifs at hw
    · exact absurd (congrArg Worker.pc (Option.some.inj hw).symm) hx
    · exact hs w x hw hx
  | waitReturns hw hready => exact fun _ _ _ _ => hready
  | claim hw | lose hw | resume hw =>
    have hready : s.ready = true := hs _ _ hw (by simp)
    exact fun _ _ _ _ => hready

/-- The future becomes ready by one action only. -/
theorem becomeReady_mem (ht : machine.run s as = some t) (hs : s.ready = false)
    (hready : t.ready = true) : .becomeReady ∈ as := by
  induction as generalizing s with
  | nil =>
    simp only [Machine.run, Option.some.injEq] at ht
    subst ht
    simp [hs] at hready
  | cons a as ih =>
    obtain ⟨u, hu, hut⟩ := Option.bind_eq_some_iff.mp ht
    cases fires_of_step hu with
    | becomeReady => exact List.mem_cons_self
    | _ => exact List.mem_cons_of_mem _ (ih hut hs)

/-- Any number of copies and of workers, in any order of their steps: at most one `h.resume()` is
executed, by no worker whose `compare_exchange` comes after the exchange of a destructor, and no
`compare_exchange` comes before the future is ready. -/
theorem claimed_at_most_once {as : List Action} {t : State}
    (ht : machine.run machine.init as = some t) :
    as.countP Action.isResume ≤ 1 ∧
    (∀ c w, Machine.Precedes (.destroy c) (.compareExchange w) as → .resume w ∉ as) ∧
    ∀ before w after, as = before ++ .compareExchange w :: after → .becomeReady ∈ before := by
  refine ⟨?_, fun c w has => resume_not_mem_of_precedes ht has, ?_⟩
  · have hle := (claims_invariant.run claims_invariant.init ht).resumes_le
    have hcount := resumes_run ht
    omega
  · intro before w after has
    subst has
    obtain ⟨u, v, hu, hfires, -⟩ := fires_of_run ht
    have hwaits : WaitsForReady u := by
      refine Machine.run_keeps waitsForReady_step ?_ hu
      intro w x hw
      simp [machine, initial] at hw
    refine becomeReady_mem hu rfl ?_
    cases hfires with
    | claim hw | lose hw => exact hwaits _ _ hw (by simp)

/-- Two coroutines await the same state, one of them is destroyed, and the future becomes ready. -/
def cancelledAwait : List Action :=
  [.copyConstruct 1 0, .awaitSuspend 0 0, .awaitSuspend 1 1, .becomeReady, .waitReturns 1,
    .compareExchange 1, .resume 1, .destroy 0, .waitReturns 0, .compareExchange 0]

/-- The worker of the destroyed one does not resume it. -/
theorem claimed_cancelledAwait :
    cancelledAwait.countP Action.isResume ≤ 1 ∧ .resume 0 ∉ cancelledAwait := by
  obtain ⟨t, ht⟩ : ∃ t, machine.run machine.init cancelledAwait = some t := ⟨_, rfl⟩
  obtain ⟨hcount, hlost, -⟩ := claimed_at_most_once ht
  refine ⟨hcount, hlost 0 0 ?_⟩
  exact ⟨cancelledAwait.take 7, [.waitReturns 0], [], rfl⟩

end Order

end NatsCpp.FutureAwaitable
