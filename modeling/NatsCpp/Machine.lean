import Mathlib.Data.List.Nodup
import Mathlib.Data.Nat.Notation
import Mathlib.Logic.Relation

/-!
# Guarded runs of a deterministic machine

A machine fires one action at a time; an action that is not enabled in a state
has no successor. Interleavings of any number of parties are lists of actions.
A guard restricts the states in which an action may be taken, so that a
property of the runs whose steps all meet a condition is a property of the
states reachable under that guard.
-/
namespace NatsCpp

structure Machine (σ α : Type*) where
  init : σ
  step : σ → α → Option σ

namespace Machine

variable {σ α : Type*} {M : Machine σ α} {G G' : σ → α → Prop} {I J : σ → Prop}

/-- Fires the actions in order; `none` as soon as one of them is not enabled. -/
def run (M : Machine σ α) (s : σ) : List α → Option σ
  | [] => some s
  | a :: as => (M.step s a).bind fun t => M.run t as

/-- One step, taken where the guard allows it. -/
def StepIf (M : Machine σ α) (G : σ → α → Prop) (s t : σ) : Prop :=
  ∃ a, G s a ∧ M.step s a = some t

/-- The states of the runs all of whose steps meet the guard. -/
def Reachable (M : Machine σ α) (G : σ → α → Prop) (s : σ) : Prop :=
  Relation.ReflTransGen (M.StepIf G) M.init s

/-- The guard that restricts nothing. -/
def Free (_ : σ) (_ : α) : Prop := True

/-- Every action of the list that is enabled meets the guard in the state in which it is taken. -/
def Respects (M : Machine σ α) (G : σ → α → Prop) : σ → List α → Prop
  | _, [] => True
  | s, a :: as => ∀ t, M.step s a = some t → G s a ∧ M.Respects G t as

/-- Whether a run meets a decidable guard can be computed. -/
def decidableRespects (M : Machine σ α) (G : σ → α → Prop) [∀ s a, Decidable (G s a)] :
    ∀ s as, Decidable (M.Respects G s as)
  | _, [] => isTrue trivial
  | s, a :: as =>
    match h : M.step s a with
    | none => isTrue fun t ht => by simp [h] at ht
    | some t =>
      have := M.decidableRespects G t as
      decidable_of_iff (G s a ∧ M.Respects G t as)
        ⟨fun hg u hu => by obtain rfl := Option.some.inj (h.symm.trans hu); exact hg,
          fun hg => hg t h⟩

instance [∀ s a, Decidable (G s a)] (s : σ) (as : List α) : Decidable (M.Respects G s as) :=
  M.decidableRespects G s as

/-- Every state that the actions of the list lead through has the property. -/
def Throughout (M : Machine σ α) (P : σ → Prop) : σ → List α → Prop
  | s, [] => P s
  | s, a :: as => P s ∧ ∀ t, M.step s a = some t → M.Throughout P t as

/-- An inductive invariant of the guarded runs. -/
structure Invariant (M : Machine σ α) (G : σ → α → Prop) (I : σ → Prop) : Prop where
  init : I M.init
  step : ∀ {s a t}, I s → G s a → M.step s a = some t → I t

theorem Invariant.reachable (h : M.Invariant G I) {s : σ} (hs : M.Reachable G s) : I s := by
  induction hs with
  | refl => exact h.init
  | tail _ hst ih =>
    obtain ⟨a, hg, hstep⟩ := hst
    exact h.step ih hg hstep

/-- A second invariant may use the first one, on the runs of a stronger guard. -/
theorem Invariant.and (h : M.Invariant G I) (hG : ∀ s a, G' s a → G s a) (hinit : J M.init)
    (hstep : ∀ {s a t}, I s → J s → G' s a → M.step s a = some t → J t) :
    M.Invariant G' (fun s => I s ∧ J s) where
  init := ⟨h.init, hinit⟩
  step := fun hs hg ht => ⟨h.step hs.1 (hG _ _ hg) ht, hstep hs.1 hs.2 hg ht⟩

theorem Reachable.init : M.Reachable G M.init := Relation.ReflTransGen.refl

theorem Reachable.step {s t : σ} {a : α} (hs : M.Reachable G s) (hg : G s a)
    (ht : M.step s a = some t) : M.Reachable G t :=
  Relation.ReflTransGen.tail hs ⟨a, hg, ht⟩

/-- The guard holds wherever a run that respects it has come to. -/
theorem Respects.of_run {s u t : σ} {as : List α} {a : α} (h : M.Respects G s (as ++ [a]))
    (hu : M.run s as = some u) (ht : M.step u a = some t) : G u a := by
  induction as generalizing s with
  | nil =>
    simp only [Machine.run, Option.some.injEq] at hu
    subst u
    exact (h t ht).1
  | cons b bs ih =>
    obtain ⟨v, hv, hvu⟩ := Option.bind_eq_some_iff.mp hu
    exact ih (h v hv).2 hvu

theorem Throughout.of_run {P : σ → Prop} {s t : σ} {as : List α} (h : M.Throughout P s as)
    (ht : M.run s as = some t) : P t := by
  induction as generalizing s with
  | nil =>
    simp only [Machine.run, Option.some.injEq] at ht
    exact ht ▸ h
  | cons a as ih =>
    obtain ⟨u, hu, hut⟩ := Option.bind_eq_some_iff.mp ht
    exact ih (h.2 u hu) hut

theorem Throughout.mono {P Q : σ → Prop} {s : σ} {as : List α} (h : M.Throughout P s as)
    (hPQ : ∀ s, P s → Q s) : M.Throughout Q s as := by
  induction as generalizing s with
  | nil => exact hPQ s h
  | cons a as ih => exact ⟨hPQ s h.1, fun t ht => ih (h.2 t ht)⟩

/-- Properties that agree where a third one holds, hold throughout the same runs. -/
theorem Throughout.congr {P Q : σ → Prop} {s : σ} {as : List α} (h : M.Throughout I s as)
    (hPQ : ∀ {s}, I s → (P s ↔ Q s)) : M.Throughout P s as ↔ M.Throughout Q s as := by
  induction as generalizing s with
  | nil => exact hPQ h
  | cons a as ih =>
    refine and_congr (hPQ h.1) (forall_congr' fun t => imp_congr_right fun ht => ?_)
    exact ih (h.2 t ht)

/-- An inductive invariant holds all along every run. -/
theorem Invariant.throughout (h : M.Invariant Free I) {s : σ} (hs : I s) (as : List α) :
    M.Throughout I s as := by
  induction as generalizing s with
  | nil => exact hs
  | cons a as ih => exact ⟨hs, fun t ht => ih (h.step hs trivial ht)⟩

/-- Two guards that agree on the steps from states of an invariant allow the same runs. -/
theorem Invariant.respects_iff (hI : M.Invariant Free I)
    (h : ∀ {s a t}, I s → M.step s a = some t → (G s a ↔ G' s a)) {s : σ} (hs : I s)
    (as : List α) : M.Respects G s as ↔ M.Respects G' s as := by
  induction as generalizing s with
  | nil => exact Iff.rfl
  | cons a as ih =>
    refine forall_congr' fun t => imp_congr_right fun ht => ?_
    rw [h hs ht, ih (hI.step hs trivial ht)]

/-- If a guard says at every step whether the property goes on holding, then the
property holds all along a run exactly when the run meets the guard. -/
theorem Invariant.throughout_iff (hI : M.Invariant Free I)
    (h : ∀ {s a t}, I s → J s → M.step s a = some t → (J t ↔ G s a)) {s : σ} (hs : I s) (hJ : J s)
    (as : List α) : M.Throughout J s as ↔ M.Respects G s as := by
  induction as generalizing s with
  | nil => exact iff_of_true hJ trivial
  | cons a as ih =>
    simp only [Throughout, Respects, hJ, true_and]
    refine forall_congr' fun t => imp_congr_right fun ht => ?_
    have hG := h hs hJ ht
    by_cases hJt : J t
    · simp only [ih (hI.step hs trivial ht) hJt, hG.mp hJt, true_and]
    · have hfirst : ¬ M.Throughout J t as := by
        cases as with
        | nil => exact hJt
        | cons b bs => exact fun hall => hJt hall.1
      exact iff_of_false hfirst fun hg => hJt (hG.mpr hg.1)

/-- If a property holds after a step exactly when it held before and the guard
allows the step, then it holds after a run exactly when the run meets the guard. -/
theorem Invariant.run_iff (hI : M.Invariant Free I)
    (h : ∀ {s a t}, I s → M.step s a = some t → (J t ↔ J s ∧ G s a)) {s t : σ} (hs : I s)
    {as : List α} (ht : M.run s as = some t) : J t ↔ J s ∧ M.Respects G s as := by
  induction as generalizing s with
  | nil =>
    simp only [Machine.run, Option.some.injEq] at ht
    simp [Respects, ht]
  | cons a as ih =>
    obtain ⟨u, hu, hut⟩ := Option.bind_eq_some_iff.mp ht
    rw [ih (hI.step hs trivial hu) hut, h hs hu, and_assoc]
    simp [Respects, hu]

/-- What every step keeps is kept by a run. -/
theorem run_keeps (h : ∀ {s a t}, I s → M.step s a = some t → I t) {s t : σ} (hs : I s)
    {as : List α} (ht : M.run s as = some t) : I t := by
  induction as generalizing s with
  | nil =>
    simp only [Machine.run, Option.some.injEq] at ht
    exact ht ▸ hs
  | cons a as ih =>
    obtain ⟨u, hu, hut⟩ := Option.bind_eq_some_iff.mp ht
    exact ih (h hs hu) hut

theorem Invariant.run (h : M.Invariant Free I) {s t : σ} (hs : I s) {as : List α}
    (ht : M.run s as = some t) : I t :=
  run_keeps (fun hs hstep => h.step hs trivial hstep) hs ht

/-- What the steps of a run put out, in order. -/
def outputs {β : Type*} (M : Machine σ α) (out : σ → α → List β) : σ → List α → List β
  | _, [] => []
  | s, a :: as => out s a ++ (M.step s a).elim [] fun t => M.outputs out t as

/-- An account that each output raises bounds the number of outputs. -/
theorem Invariant.count_outputs_le {β : Type*} [BEq β] (h : M.Invariant Free I)
    {out : σ → α → List β} {account : σ → ℕ} {b : β}
    (hstep : ∀ {s a t}, I s → M.step s a = some t → account s + (out s a).count b ≤ account t)
    {s t : σ} (hs : I s) {as : List α} (ht : M.run s as = some t) :
    account s + (M.outputs out s as).count b ≤ account t := by
  induction as generalizing s with
  | nil =>
    simp only [Machine.run, Option.some.injEq] at ht
    simp [outputs, ht]
  | cons a as ih =>
    obtain ⟨u, hu, hut⟩ := Option.bind_eq_some_iff.mp ht
    have hfirst := hstep hs hu
    have htail := ih (h.step hs trivial hu) hut
    simp only [outputs, hu, Option.elim_some, List.count_append]
    omega

/-- What every step pays in and out of an account balances over a run. -/
theorem Invariant.balance {β : Type*} [BEq β] (h : M.Invariant Free I) {paid earned : σ → α → List β}
    {account : σ → ℕ} {b : β}
    (hstep : ∀ {s a t}, I s → M.step s a = some t →
      account t + (paid s a).count b = account s + (earned s a).count b)
    {s t : σ} (hs : I s) {as : List α} (ht : M.run s as = some t) :
    account t + (M.outputs paid s as).count b = account s + (M.outputs earned s as).count b := by
  induction as generalizing s with
  | nil =>
    simp only [Machine.run, Option.some.injEq] at ht
    simp [outputs, ht]
  | cons a as ih =>
    obtain ⟨u, hu, hut⟩ := Option.bind_eq_some_iff.mp ht
    have hfirst := hstep hs hu
    have htail := ih (h.step hs trivial hu) hut
    simp only [outputs, hu, Option.elim_some, List.count_append]
    omega

/-- Of what comes into being in a run and is gone when it ends, each has been ended, once. -/
theorem Invariant.outputs_perm {β : Type*} [DecidableEq β] (h : M.Invariant Free I)
    {made ended : σ → α → List β} {present gone : σ → β → ℕ}
    (hpresent : ∀ {s a t}, I s → M.step s a = some t → ∀ b,
      present t b + (ended s a).count b = present s b + (made s a).count b)
    (hgone : ∀ {s a t}, I s → M.step s a = some t → ∀ b,
      gone s b + (ended s a).count b ≤ gone t b)
    {s t : σ} (hs : I s) {as : List α} (ht : M.run s as = some t)
    (hnone : ∀ b, present s b = 0) (hleft : ∀ b, present t b = 0) (honce : ∀ b, gone t b ≤ 1) :
    (M.outputs ended s as).Perm (M.outputs made s as) ∧ (M.outputs ended s as).Nodup := by
  constructor
  · rw [List.perm_iff_count]
    intro b
    have hbalance := h.balance (fun hs ht => hpresent hs ht b) hs ht
    rw [hnone, hleft] at hbalance
    omega
  · rw [List.nodup_iff_count_le_one]
    intro b
    have hcount := h.count_outputs_le (fun hs ht => hgone hs ht b) hs ht
    have hle := honce b
    omega

/-- A rank that no allowed action raises, and that each counted one lowers, bounds their number. -/
theorem Invariant.countP_le (h : M.Invariant Free I) {allowed : α → Prop} {counted : α → Bool}
    {rank : σ → ℕ}
    (hlt : ∀ {s a t}, I s → allowed a → counted a = true → M.step s a = some t → rank t < rank s)
    (hle : ∀ {s a t}, I s → allowed a → counted a = false → M.step s a = some t → rank t ≤ rank s)
    {s t : σ} (hs : I s) {as : List α} (hallowed : ∀ a ∈ as, allowed a)
    (ht : M.run s as = some t) : as.countP counted + rank t ≤ rank s := by
  induction as generalizing s with
  | nil =>
    simp only [Machine.run, Option.some.injEq] at ht
    simp [ht]
  | cons a as ih =>
    obtain ⟨u, hu, hut⟩ := Option.bind_eq_some_iff.mp ht
    have htail := ih (h.step hs trivial hu) (fun b hb => hallowed b (List.mem_cons_of_mem a hb)) hut
    have hfirst := hallowed a List.mem_cons_self
    rw [List.countP_cons]
    cases hcounted : counted a with
    | true =>
      have hrank := hlt hs hfirst hcounted hu
      simp only [if_true]
      omega
    | false =>
      have hrank := hle hs hfirst hcounted hu
      simp only [Bool.false_eq_true, if_false]
      omega

/-- The states around an action of a run. -/
theorem run_split {s t : σ} {before after : List α} {a : α}
    (ht : M.run s (before ++ a :: after) = some t) :
    ∃ u v, M.run s before = some u ∧ M.step u a = some v ∧ M.run v after = some t := by
  induction before generalizing s with
  | nil =>
    obtain ⟨v, hv, hvt⟩ := Option.bind_eq_some_iff.mp ht
    exact ⟨s, v, rfl, hv, hvt⟩
  | cons b before ih =>
    obtain ⟨r, hr, hrt⟩ := Option.bind_eq_some_iff.mp ht
    obtain ⟨u, v, hu, hv, hvt⟩ := ih hrt
    refine ⟨u, v, ?_, hv, hvt⟩
    rw [Machine.run, hr, Option.bind_some, hu]

theorem run_append {s t u : σ} {as bs : List α} (ht : M.run s as = some t)
    (hu : M.run t bs = some u) : M.run s (as ++ bs) = some u := by
  induction as generalizing s with
  | nil =>
    simp only [Machine.run, Option.some.injEq] at ht
    rwa [ht]
  | cons a as ih =>
    obtain ⟨v, hv, hvt⟩ := Option.bind_eq_some_iff.mp ht
    rw [List.cons_append, Machine.run, hv, Option.bind_some]
    exact ih hvt

/-! ## Simulation -/

variable {τ β : Type*} {N : Machine τ β} {R : σ → τ → Prop}

/-- Each step of a machine is matched by a run of another one, from related states to related
states. -/
structure Simulation (M : Machine σ α) (N : Machine τ β) (R : σ → τ → Prop) : Prop where
  init : R M.init N.init
  step : ∀ {s a t u}, R s u → M.step s a = some t → ∃ bs v, N.run u bs = some v ∧ R t v

/-- In every state of a machine there is a related state that the other machine has come to. -/
theorem Simulation.invariant (h : Simulation M N R) :
    M.Invariant Free (fun s => ∃ bs u, N.run N.init bs = some u ∧ R s u) where
  init := ⟨[], N.init, rfl, h.init⟩
  step := by
    rintro s a t ⟨bs, u, hu, hR⟩ - ht
    obtain ⟨cs, v, hv, hRv⟩ := h.step hR ht
    exact ⟨bs ++ cs, v, run_append hu hv, hRv⟩

/-- The first action is taken before the second one. -/
def Precedes (a b : α) (as : List α) : Prop :=
  ∃ before between after, as = before ++ a :: between ++ b :: after

end Machine

end NatsCpp
