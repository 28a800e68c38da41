import NatsCpp.NativeCalls
import Mathlib.Order.Defs.Unbundled

/-!
# Contracts of computations that may throw

A contract says in which states an effect may start, in which it returns with a
value and in which it ends by an exception. There is one rule for each way to
build an effect, so that a proof follows the text of the program.
-/
namespace NatsCpp.Effect

variable {σ ε α β : Type} {P P' : σ → Prop} {Q Q' : α → σ → Prop} {R : β → σ → Prop}
  {E E' : σ → Prop} {p : Effect σ ε α}

/-- From a state of `P` the effect returns a value `a` in a state of `Q a`, or it throws in a
state of `E`. -/
def Contract (P : σ → Prop) (p : Effect σ ε α) (Q : α → σ → Prop) (E : σ → Prop) : Prop :=
  ∀ s, P s → match p.outcome s with
    | (.ok a, t) => Q a t
    | (.error _, t) => E t

/-- A function of the state that also returns a value. -/
def act (f : σ → α × σ) : Effect σ ε α :=
  ExceptT.mk fun s => (.ok (f s).1, (f s).2)

@[simp] theorem outcome_act (f : σ → α × σ) (s : σ) :
    (act f : Effect σ ε α).outcome s = (.ok (f s).1, (f s).2) :=
  rfl

namespace Contract

theorem ok (h : Contract P p Q E) {s t : σ} {a : α} (hs : P s) (hp : p.outcome s = (.ok a, t)) :
    Q a t := by
  have hc := h s hs
  rwa [hp] at hc

theorem error (h : Contract P p Q E) {s t : σ} {e : ε} (hs : P s)
    (hp : p.outcome s = (.error e, t)) : E t := by
  have hc := h s hs
  rwa [hp] at hc

theorem weaken (h : Contract P p Q E) (hP : ∀ s, P' s → P s) (hQ : ∀ a s, Q a s → Q' a s)
    (hE : ∀ s, E s → E' s) : Contract P' p Q' E' := by
  intro s hs
  cases hp : p.outcome s with
  | mk r t =>
    cases r with
    | ok a => exact hQ a t (h.ok (hP s hs) hp)
    | error e => exact hE t (h.error (hP s hs) hp)

theorem pure {a : α} (h : ∀ s, P s → Q a s) : Contract P (pure a : Effect σ ε α) Q E :=
  h

theorem throw {e : ε} (h : ∀ s, P s → E s) : Contract P (throw e : Effect σ ε α) Q E :=
  h

theorem act {f : σ → α × σ} (h : ∀ s, P s → Q (f s).1 (f s).2) :
    Contract P (act f : Effect σ ε α) Q E :=
  h

theorem update {f : σ → σ} {Q : Unit → σ → Prop} (h : ∀ s, P s → Q () (f s)) :
    Contract P (update f : Effect σ ε Unit) Q E :=
  h

/-- The second effect starts where the first one returned. -/
theorem bind {f : α → Effect σ ε β} (hp : Contract P p Q E) (hf : ∀ a, Contract (Q a) (f a) R E) :
    Contract P (p >>= f) R E := by
  intro s hs
  cases h : p.outcome s with
  | mk r t =>
    cases r with
    | ok a =>
      rw [outcome_bind_of_ok p f s h]
      exact hf a t (hp.ok hs h)
    | error e =>
      rw [outcome_bind_of_error p f s h]
      exact hp.error hs h

/-- The destructor runs however the effect ends. -/
theorem guarded {destroy : σ → σ}
    (h : Contract P p (fun a s => Q a (destroy s)) (fun s => E (destroy s))) :
    Contract P (p.guarded destroy) Q E := by
  intro s hs
  rw [outcome_guarded]
  cases hp : p.outcome s with
  | mk r t =>
    cases r with
    | ok a => exact h.ok hs hp
    | error e => exact h.error hs hp

/-- The destructor runs if the effect throws. -/
theorem unwinding {destroy : σ → σ} (h : Contract P p Q (fun s => E (destroy s))) :
    Contract P (p.unwinding destroy) Q E := by
  intro s hs
  rw [outcome_unwinding]
  cases hp : p.outcome s with
  | mk r t =>
    cases r with
    | ok a => exact h.ok hs hp
    | error e => exact h.error hs hp

end Contract

/-! ## Effects that keep to a preorder -/

/-- However the effect ends, the state at its end is related to the one at its start. -/
def Keeping (R : σ → σ → Prop) (p : Effect σ ε α) : Prop := ∀ s, R s (p.outcome s).2

namespace Keeping

variable {R : σ → σ → Prop}

theorem pure [Std.Refl R] (a : α) : Keeping R (pure a : Effect σ ε α) := fun s => refl_of R s

theorem throw [Std.Refl R] (e : ε) : Keeping R (throw e : Effect σ ε α) := fun s => refl_of R s

theorem act {f : σ → α × σ} (h : ∀ s, R s (f s).2) : Keeping R (act f : Effect σ ε α) := h

theorem update {f : σ → σ} (h : ∀ s, R s (f s)) : Keeping R (update f : Effect σ ε Unit) := h

theorem bind [IsTrans σ R] {f : α → Effect σ ε β} (hp : Keeping R p)
    (hf : ∀ a, Keeping R (f a)) : Keeping R (p >>= f) := by
  intro s
  have hfirst := hp s
  cases h : p.outcome s with
  | mk r t =>
    rw [h] at hfirst
    cases r with
    | ok a =>
      rw [outcome_bind_of_ok p f s h]
      exact trans_of R hfirst (hf a t)
    | error e =>
      rw [outcome_bind_of_error p f s h]
      exact hfirst

theorem guarded [IsTrans σ R] {destroy : σ → σ} (hp : Keeping R p) (h : ∀ s, R s (destroy s)) :
    Keeping R (p.guarded destroy) :=
  fun s => trans_of R (hp s) (h _)

theorem unwinding [IsTrans σ R] {destroy : σ → σ} (hp : Keeping R p) (h : ∀ s, R s (destroy s)) :
    Keeping R (p.unwinding destroy) := by
  intro s
  have hend := hp s
  rw [outcome_unwinding]
  cases hout : p.outcome s with
  | mk r t =>
    rw [hout] at hend
    cases r with
    | ok a => exact hend
    | error e => exact trans_of R hend (h t)

end Keeping

end NatsCpp.Effect
