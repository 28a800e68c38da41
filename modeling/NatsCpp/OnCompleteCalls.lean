import NatsCpp.Machine
import NatsCpp.SubscriptionModel

/-!
# Concurrent calls of `set_on_complete_callback` on one subscription

Each call inserts its token under the lock, hands it to nats.c without the lock
and then, under the lock again, prunes the other tokens or erases its own. The
steps of different calls may come in any order; a call returns last, and its
local token goes out of scope.
-/
namespace NatsCpp.OnComplete

open Subscription (Closure Owner)

/-- Where a call of `set_on_complete_callback` stands. -/
inductive Stage where
  | inserted
  | installed
  | failed
  | returning
  deriving DecidableEq

structure Call where
  token : Closure
  stage : Stage

/-- The subscription as the calls share it: `completion_callbacks_`, the function
objects, and the closure that nats.c holds. -/
structure State where
  completionCallbacks : Finset ℕ
  functions : SharedHeap ℕ Owner ℕ
  fresh : ℕ
  onComplete : Option Closure
  calls : ℕ → Option Call

def initial : State := ⟨∅, fun _ => none, 0, none, fun _ => none⟩

/-- `make_shared` at a free address, then the locked insert. -/
def insertToken (s : State) (c a : ℕ) : Option State :=
  if (s.calls c).isNone ∧ (s.functions.value a).isNone then
    some { s with
      completionCallbacks := insert a s.completionCallbacks
      functions := (s.functions.make a s.fresh (.installing c)).share a .completions
      fresh := s.fresh + 1
      calls := Function.update s.calls c (some ⟨⟨a, s.fresh⟩, .inserted⟩) }
  else none

/-- `natsSubscription_SetOnCompleteCB` replaces the closure nats.c holds, if it succeeds. -/
def setOnCompleteCB (s : State) (c : ℕ) (ok : Bool) : Option State :=
  match s.calls c, ok with
  | some ⟨token, .inserted⟩, true => some { s with
      onComplete := some token
      calls := Function.update s.calls c (some ⟨token, .installed⟩) }
  | some ⟨token, .inserted⟩, false => some { s with
      calls := Function.update s.calls c (some ⟨token, .failed⟩) }
  | _, _ => none

/-- The locked loop that erases every token but the own one. -/
def prune (s : State) (c : ℕ) : Option State :=
  match s.calls c with
  | some ⟨token, .installed⟩ => some { s with
      completionCallbacks := s.completionCallbacks.filter (· = token.addr)
      functions := s.functions.dropAll
        (fun b => b ∈ s.completionCallbacks ∧ b ≠ token.addr) .completions
      calls := Function.update s.calls c (some ⟨token, .returning⟩) }
  | _ => none

/-- The failure path erases the own token under the lock. -/
def eraseToken (s : State) (c : ℕ) : Option State :=
  match s.calls c with
  | some ⟨token, .failed⟩ => some { s with
      completionCallbacks := s.completionCallbacks.erase token.addr
      functions := s.functions.drop token.addr .completions
      calls := Function.update s.calls c (some ⟨token, .returning⟩) }
  | _ => none

/-- The call returns or throws, and the local `token` goes out of scope. -/
def finish (s : State) (c : ℕ) : Option State :=
  match s.calls c with
  | some ⟨token, .returning⟩ => some { s with
      functions := s.functions.drop token.addr (.installing c)
      calls := Function.update s.calls c none }
  | _ => none

inductive Action where
  | insertToken (c a : ℕ)
  | setOnCompleteCB (c : ℕ) (ok : Bool)
  | prune (c : ℕ)
  | eraseToken (c : ℕ)
  | finish (c : ℕ)

def step (s : State) : Action → Option State
  | .insertToken c a => insertToken s c a
  | .setOnCompleteCB c ok => setOnCompleteCB s c ok
  | .prune c => prune s c
  | .eraseToken c => eraseToken s c
  | .finish c => finish s c

def machine : Machine State Action := ⟨initial, step⟩

/-- nats.c holds the key of a live function object. -/
def ClosureHeld (s : State) : Prop :=
  ∀ k, s.onComplete = some k → k.addr ∈ s.completionCallbacks ∧
    s.functions.value k.addr = some k.ident

/-- When no call is in progress, nats.c holds the key of a live function object. -/
def HeldWhenIdle (s : State) : Prop := (∀ c, s.calls c = none) → ClosureHeld s

/-- A call installs its token only while it is in the map, and prunes the others
only while its own is the one that nats.c holds. -/
def PrunesInOrder (s : State) : Action → Prop
  | .setOnCompleteCB c true => ∀ x ∈ s.calls c, x.token.addr ∈ s.completionCallbacks
  | .prune c => ∀ x ∈ s.calls c, ∀ k ∈ s.onComplete, k = x.token
  | _ => True

instance (s : State) (a : Action) : Decidable (PrunesInOrder s a) :=
  match a with
  | .setOnCompleteCB c true =>
    inferInstanceAs (Decidable (∀ x ∈ s.calls c, x.token.addr ∈ s.completionCallbacks))
  | .prune c => inferInstanceAs (Decidable (∀ x ∈ s.calls c, ∀ k ∈ s.onComplete, k = x.token))
  | .setOnCompleteCB _ false | .insertToken .. | .eraseToken .. | .finish .. =>
    isTrue trivial

/-- What every run keeps: calls hold distinct live tokens, the map owns its keys,
and nats.c holds no token of a call that has not handed it over. -/
structure Tokens (s : State) : Prop where
  held : ∀ {c x}, s.calls c = some x → .installing c ∈ s.functions.owners x.token.addr ∧
    s.functions.value x.token.addr = some x.token.ident
  distinct : ∀ {c d x y}, s.calls c = some x → s.calls d = some y →
    x.token.addr = y.token.addr → c = d
  owned : ∀ {a}, a ∈ s.completionCallbacks → .completions ∈ s.functions.owners a
  spare : ∀ {c x}, s.calls c = some x → x.stage = .inserted ∨ x.stage = .failed →
    s.onComplete ≠ some x.token
  tokenFresh : ∀ {c x}, s.calls c = some x → x.token.ident < s.fresh
  installedFresh : ∀ {k}, s.onComplete = some k → k.ident < s.fresh

/-- What a step changes, with the facts that enable it. -/
inductive Fires (s : State) : Action → State → Prop where
  | insertToken {c a : ℕ} (hc : s.calls c = none) (ha : s.functions.value a = none) :
      Fires s (.insertToken c a) { s with
        completionCallbacks := insert a s.completionCallbacks
        functions := (s.functions.make a s.fresh (.installing c)).share a .completions
        fresh := s.fresh + 1
        calls := Function.update s.calls c (some ⟨⟨a, s.fresh⟩, .inserted⟩) }
  | install {c : ℕ} {token : Closure} (hc : s.calls c = some ⟨token, .inserted⟩) :
      Fires s (.setOnCompleteCB c true) { s with
        onComplete := some token
        calls := Function.update s.calls c (some ⟨token, .installed⟩) }
  | fail {c : ℕ} {token : Closure} (hc : s.calls c = some ⟨token, .inserted⟩) :
      Fires s (.setOnCompleteCB c false) { s with
        calls := Function.update s.calls c (some ⟨token, .failed⟩) }
  | prune {c : ℕ} {token : Closure} (hc : s.calls c = some ⟨token, .installed⟩) :
      Fires s (.prune c) { s with
        completionCallbacks := s.completionCallbacks.filter (· = token.addr)
        functions := s.functions.dropAll
          (fun b => b ∈ s.completionCallbacks ∧ b ≠ token.addr) .completions
        calls := Function.update s.calls c (some ⟨token, .returning⟩) }
  | eraseToken {c : ℕ} {token : Closure} (hc : s.calls c = some ⟨token, .failed⟩) :
      Fires s (.eraseToken c) { s with
        completionCallbacks := s.completionCallbacks.erase token.addr
        functions := s.functions.drop token.addr .completions
        calls := Function.update s.calls c (some ⟨token, .returning⟩) }
  | finish {c : ℕ} {token : Closure} (hc : s.calls c = some ⟨token, .returning⟩) :
      Fires s (.finish c) { s with
        functions := s.functions.drop token.addr (.installing c)
        calls := Function.update s.calls c none }

theorem fires_of_step {s t : State} {a : Action} (ht : step s a = some t) : Fires s a t := by
  cases a with
  | insertToken c a =>
    simp only [step, insertToken, Option.isNone_iff_eq_none] at ht
    split at ht
    · rename_i hfree
      exact Option.some.inj ht ▸ .insertToken hfree.1 hfree.2
    · contradiction
  | setOnCompleteCB c ok =>
    simp only [step, setOnCompleteCB] at ht
    split at ht
    · rename_i hc
      exact Option.some.inj ht ▸ .install hc
    · rename_i hc
      exact Option.some.inj ht ▸ .fail hc
    · contradiction
  | prune c =>
    simp only [step, prune] at ht
    split at ht
    · rename_i hc
      exact Option.some.inj ht ▸ .prune hc
    · contradiction
  | eraseToken c =>
    simp only [step, eraseToken] at ht
    split at ht
    · rename_i hc
      exact Option.some.inj ht ▸ .eraseToken hc
    · contradiction
  | finish c =>
    simp only [step, finish] at ht
    split at ht
    · rename_i hc
      exact Option.some.inj ht ▸ .finish hc
    · contradiction

namespace Tokens

variable {s t : State}

/-- Calls go on with their tokens or end, and no token is inserted. -/
theorem frame (h : Tokens s) (hfresh : t.fresh = s.fresh)
    (hcalls : ∀ {d y}, t.calls d = some y → ∃ x, s.calls d = some x ∧ x.token = y.token)
    (hkeeps : ∀ {d y}, t.calls d = some y →
      SharedHeap.Keeps (fun _ o => o = .installing d) s.functions t.functions)
    (howned : ∀ {a}, a ∈ t.completionCallbacks → .completions ∈ t.functions.owners a)
    (hspare : ∀ {d y}, t.calls d = some y → y.stage = .inserted ∨ y.stage = .failed →
      t.onComplete ≠ some y.token)
    (hinstalled : ∀ {k}, t.onComplete = some k → s.onComplete = some k ∨
      ∃ c x, s.calls c = some x ∧ x.token = k) : Tokens t where
  held hy := by
    obtain ⟨x, hx, htoken⟩ := hcalls hy
    obtain ⟨howner, hvalue⟩ := h.held hx
    obtain ⟨howner', hvalue'⟩ := hkeeps hy howner rfl
    rw [← htoken]
    exact ⟨howner', hvalue'.trans hvalue⟩
  distinct hy hy' he := by
    obtain ⟨x, hx, htoken⟩ := hcalls hy
    obtain ⟨x', hx', htoken'⟩ := hcalls hy'
    exact h.distinct hx hx' (by rw [htoken, htoken', he])
  owned := howned
  spare := hspare
  tokenFresh hy := by
    obtain ⟨x, hx, htoken⟩ := hcalls hy
    rw [hfresh, ← htoken]
    exact h.tokenFresh hx
  installedFresh hk := by
    rw [hfresh]
    rcases hinstalled hk with hold | ⟨c, x, hx, rfl⟩
    · exact h.installedFresh hold
    · exact h.tokenFresh hx

theorem insertToken (h : Tokens s) {c a : ℕ} (hc : s.calls c = none)
    (ha : s.functions.value a = none) : Tokens { s with
      completionCallbacks := insert a s.completionCallbacks
      functions := (s.functions.make a s.fresh (.installing c)).share a .completions
      fresh := s.fresh + 1
      calls := Function.update s.calls c (some ⟨⟨a, s.fresh⟩, .inserted⟩) } := by
  have hkeeps : SharedHeap.Keeps (fun _ _ => True) s.functions
      ((s.functions.make a s.fresh (.installing c)).share a .completions) :=
    (SharedHeap.Keeps.make ha _ _).trans (.share _ _)
  have hother {d : ℕ} {y : Call} (hy : s.calls d = some y) : y.token.addr ≠ a := by
    intro he
    have hvalue := (h.held hy).2
    rw [he, ha] at hvalue
    contradiction
  have hcalls {d : ℕ} {y : Call}
      (hy : Function.update s.calls c (some ⟨⟨a, s.fresh⟩, .inserted⟩) d = some y) :
      (d = c ∧ y = ⟨⟨a, s.fresh⟩, .inserted⟩) ∨ (d ≠ c ∧ s.calls d = some y) := by
    rw [Function.update_apply] at hy
    split_ifs at hy with hd
    · exact .inl ⟨hd, (Option.some.inj hy).symm⟩
    · exact .inr ⟨hd, hy⟩
  constructor
  · intro d y hy
    rcases hcalls hy with ⟨rfl, rfl⟩ | ⟨_, hy⟩
    · simp
    · obtain ⟨howner, hvalue⟩ := h.held hy
      obtain ⟨howner', hvalue'⟩ := hkeeps howner trivial
      exact ⟨howner', hvalue'.trans hvalue⟩
  · intro d d' y y' hy hy' he
    rcases hcalls hy with ⟨hd, rfl⟩ | ⟨_, hold⟩ <;>
      rcases hcalls hy' with ⟨hd', rfl⟩ | ⟨_, hold'⟩
    · exact hd.trans hd'.symm
    · exact (hother hold' he.symm).elim
    · exact (hother hold he).elim
    · exact h.distinct hold hold' he
  · intro b hb
    rcases Finset.mem_insert.mp hb with rfl | hb
    · simp
    · exact (hkeeps (h.owned hb) trivial).1
  · intro d y hy hstage hk
    rcases hcalls hy with ⟨_, rfl⟩ | ⟨_, hy⟩
    · have hlt : s.fresh < s.fresh := h.installedFresh hk
      omega
    · exact h.spare hy hstage hk
  · intro d y hy
    rcases hcalls hy with ⟨_, rfl⟩ | ⟨_, hy⟩
    · exact Nat.lt_succ_self _
    · exact Nat.lt_succ_of_lt (h.tokenFresh hy)
  · intro k hk
    exact Nat.lt_succ_of_lt (h.installedFresh hk)

/-- The call `c` leaves one stage for another. -/
theorem calls_of_update {c d : ℕ} {token : Closure} {stage stage' : Stage} {y : Call}
    (hc : s.calls c = some ⟨token, stage⟩)
    (hy : Function.update s.calls c (some ⟨token, stage'⟩) d = some y) :
    ∃ x, s.calls d = some x ∧ x.token = y.token ∧ (d ≠ c → x = y) ∧
      (d = c → y = ⟨token, stage'⟩) := by
  rw [Function.update_apply] at hy
  split_ifs at hy with hd
  · obtain rfl := Option.some.inj hy
    exact ⟨⟨token, stage⟩, hd ▸ hc, rfl, fun hne => (hne hd).elim, fun _ => rfl⟩
  · exact ⟨y, hy, rfl, fun _ => rfl, fun he => (hd he).elim⟩

/-- The call `c` goes on to a stage in which nats.c has not been given its token. -/
theorem restage (h : Tokens s) {c : ℕ} {token : Closure} {stage stage' : Stage}
    (hc : s.calls c = some ⟨token, stage⟩)
    (hstage : stage' = .inserted ∨ stage' = .failed → stage = .inserted ∨ stage = .failed)
    (hcalls : t.calls = Function.update s.calls c (some ⟨token, stage'⟩))
    (hfresh : t.fresh = s.fresh) (hk : t.onComplete = s.onComplete)
    (hkeeps : SharedHeap.Keeps (fun _ o => o ≠ .completions) s.functions t.functions)
    (howned : ∀ {a}, a ∈ t.completionCallbacks → .completions ∈ t.functions.owners a) :
    Tokens t := by
  refine h.frame hfresh ?_ ?_ howned ?_ (fun hk' => .inl (hk ▸ hk'))
  · intro d y hy
    obtain ⟨x, hx, htoken, -⟩ := calls_of_update hc (hcalls ▸ hy)
    exact ⟨x, hx, htoken⟩
  · intro d y _ a o ho hd
    exact hkeeps ho (by simp [hd])
  · intro d y hy hy'
    obtain ⟨x, hx, htoken, hsame, hnew⟩ := calls_of_update hc (hcalls ▸ hy)
    rw [hk, ← htoken]
    by_cases hd : d = c
    · subst d
      obtain rfl := Option.some.inj (hc.symm.trans hx)
      rw [hnew rfl] at hy'
      exact h.spare hc (hstage hy')
    · exact h.spare hx (hsame hd ▸ hy')

theorem step {a : Action} (h : Tokens s) (ht : step s a = some t) : Tokens t := by
  cases fires_of_step ht with
  | insertToken hc ha => exact h.insertToken hc ha
  | @install c token hc =>
    refine h.frame rfl ?_ (fun _ => .refl) h.owned ?_ ?_
    · intro d y hy
      obtain ⟨x, hx, htoken, -⟩ := calls_of_update hc hy
      exact ⟨x, hx, htoken⟩
    · intro d y hy hstage hk
      obtain ⟨x, hx, htoken, hsame, hnew⟩ := calls_of_update hc hy
      have hd : d = c := h.distinct hx hc (by rw [htoken, ← Option.some.inj hk])
      rw [hnew hd] at hstage
      simp at hstage
    · rintro k ⟨⟩
      exact .inr ⟨c, _, hc, rfl⟩
  | fail hc => exact h.restage hc (by simp) rfl rfl rfl .refl h.owned
  | prune hc =>
    refine h.restage hc (by simp) rfl rfl rfl (.dropAll _ (by simp)) ?_
    intro a ha
    obtain ⟨hmem, rfl⟩ := Finset.mem_filter.mp ha
    simpa using h.owned hmem
  | eraseToken hc =>
    refine h.restage hc (by simp) rfl rfl rfl (.drop (by simp)) ?_
    intro a ha
    obtain ⟨hne, hmem⟩ := Finset.mem_erase.mp ha
    simpa [hne] using h.owned hmem
  | @finish c token hc =>
    have hcalls {d : ℕ} {y : Call} (hy : Function.update s.calls c none d = some y) :
        d ≠ c ∧ s.calls d = some y := by
      rw [Function.update_apply] at hy
      split_ifs at hy with hd
      exact ⟨hd, hy⟩
    refine h.frame rfl ?_ ?_ ?_ ?_ .inl
    · intro d y hy
      exact ⟨y, (hcalls hy).2, rfl⟩
    · intro d y hy
      exact .drop (by simpa using (hcalls hy).1.symm)
    · intro a ha
      have hkeeps : SharedHeap.Keeps (fun _ o => o = .completions) s.functions
          (s.functions.drop token.addr (.installing c)) := .drop (by simp)
      exact (hkeeps (h.owned ha) rfl).1
    · intro d y hy hstage
      exact h.spare (hcalls hy).2 hstage

end Tokens

theorem tokens_invariant : machine.Invariant Machine.Free Tokens where
  init := by constructor <;> simp [machine, initial]
  step h _ ht := h.step ht

/-- What nats.c holds stays a key of a live object exactly in the steps that
install and prune in order. -/
theorem closureHeld_step_iff {s t : State} {a : Action} (h : Tokens s) (hheld : ClosureHeld s)
    (ht : step s a = some t) : ClosureHeld t ↔ PrunesInOrder s a := by
  cases fires_of_step ht with
  | @insertToken c a hc ha =>
    refine iff_of_true ?_ trivial
    intro k hk
    obtain ⟨hmem, hvalue⟩ := hheld k hk
    have hne : k.addr ≠ a := by
      rintro rfl
      rw [ha] at hvalue
      contradiction
    exact ⟨Finset.mem_insert_of_mem hmem, by simpa [hne] using hvalue⟩
  | @install c token hc =>
    have hvalue := (h.held hc).2
    simp [ClosureHeld, PrunesInOrder, hc, hvalue]
  | fail => exact iff_of_true hheld trivial
  | @prune c token hc =>
    have htoken := (h.held hc).2
    constructor
    · intro hheld' x hx k hk
      obtain rfl : x = ⟨token, .installed⟩ := Option.some.inj (hx.symm.trans hc)
      obtain ⟨hmem, hvalue⟩ := hheld' k hk
      have haddr : k.addr = token.addr := (Finset.mem_filter.mp hmem).2
      have hident := (hheld k hk).2
      rw [haddr, htoken, Option.some.injEq] at hident
      exact Closure.ext haddr hident.symm
    · intro horder k hk
      obtain rfl : k = token := horder _ hc k hk
      refine ⟨Finset.mem_filter.mpr ⟨(hheld k hk).1, rfl⟩, ?_⟩
      rw [SharedHeap.value_dropAll, if_neg (by simp), htoken]
  | @eraseToken c token hc =>
    refine iff_of_true ?_ trivial
    intro k hk
    obtain ⟨hmem, hvalue⟩ := hheld k hk
    have hne : k.addr ≠ token.addr := by
      intro haddr
      have htoken := (h.held hc).2
      have hident := hvalue
      rw [haddr, htoken, Option.some.injEq] at hident
      have hsame : k = token := Closure.ext haddr hident.symm
      exact h.spare hc (.inr rfl) (hsame ▸ hk)
    exact ⟨Finset.mem_erase.mpr ⟨hne, hmem⟩, by rwa [SharedHeap.value_drop_of_ne _ _ _ _ hne]⟩
  | @finish c token hc =>
    refine iff_of_true ?_ trivial
    intro k hk
    obtain ⟨hmem, hvalue⟩ := hheld k hk
    have howned := h.owned hmem
    exact ⟨hmem, by rwa [SharedHeap.value_drop_of_owner _ _ _ _ howned (by simp)]⟩

/-- The closure at nats.c is a key of a live object in all states of a run, busy
or idle, exactly if the calls of the run install and prune in order. -/
theorem closureHeld_throughout_iff (as : List Action) :
    machine.Throughout ClosureHeld machine.init as ↔
      machine.Respects PrunesInOrder machine.init as := by
  refine tokens_invariant.throughout_iff ?_ tokens_invariant.init ?_ as
  · intro s a t h hheld ht
    exact closureHeld_step_iff h hheld ht
  · intro k hk
    simp [machine, initial] at hk

/-- If the calls of a run install and prune in order, then in every state of the
run without a call in progress the closure that nats.c holds is a key of
`completion_callbacks_` and its function object is alive. The converse does not hold:
after a prune out of order the next successful call installs its own token, and the
map is in order again before the run is idle. -/
theorem heldWhenIdle_of_prunesInOrder (as : List Action)
    (h : machine.Respects PrunesInOrder machine.init as) :
    machine.Throughout HeldWhenIdle machine.init as :=
  ((closureHeld_throughout_iff as).mpr h).mono fun _ hheld _ => hheld

/-- Two calls overlap: both insert, the second fails and the first installs. -/
def overlapInOrder : List Action :=
  [.insertToken 0 0, .insertToken 1 1, .setOnCompleteCB 1 false, .setOnCompleteCB 0 true,
    .eraseToken 1, .finish 1, .prune 0, .finish 0]

theorem heldWhenIdle_overlapInOrder : machine.Respects PrunesInOrder machine.init overlapInOrder ∧
    machine.Throughout HeldWhenIdle machine.init overlapInOrder := by
  have horder : machine.Respects PrunesInOrder machine.init overlapInOrder := by decide
  exact ⟨horder, heldWhenIdle_of_prunesInOrder _ horder⟩

/-- Two calls both succeed; the second installs last and prunes first. -/
def pruneAfterReplaced : List Action :=
  [.insertToken 0 0, .insertToken 1 1, .setOnCompleteCB 0 true, .setOnCompleteCB 1 true,
    .prune 1, .prune 0, .finish 0, .finish 1]

/-- The first call erases the token of the second, whose closure nats.c is left with. -/
theorem pruneAfterReplaced_not_held :
    ¬ machine.Throughout HeldWhenIdle machine.init pruneAfterReplaced := by
  intro h
  obtain ⟨s, hs, hidle, hk, hmem⟩ : ∃ s, machine.run machine.init pruneAfterReplaced = some s ∧
      (∀ c, s.calls c = none) ∧ s.onComplete = some ⟨1, 1⟩ ∧ 1 ∉ s.completionCallbacks := by
    refine ⟨_, rfl, fun c => ?_, by decide, by decide⟩
    by_cases h0 : c = 0
    · subst c
      rfl
    · by_cases h1 : c = 1
      · subst c
        rfl
      · simp [h0, h1, machine, initial]
  exact hmem ((h.of_run hs) hidle _ hk).1

end NatsCpp.OnComplete
