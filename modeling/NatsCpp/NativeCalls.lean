import Mathlib.Data.List.TakeWhile

/-!
# Computations that may throw, and calls of an outside library

An effect changes a state and ends with a value or with an exception; the state
reached before an exception stays. A program is an effect that only records the
calls that it makes, in order; what the outside library answers may depend on
all the calls made so far. The texts that it gets are C strings.
-/
namespace NatsCpp

abbrev Effect (σ ε α : Type) := ExceptT ε (StateM σ) α

abbrev Program (κ ε α : Type) := Effect (List κ) ε α

namespace Effect

variable {σ τ ε α β : Type}

/-- How an effect ends that starts in a state, and the state in which it ends. -/
def outcome (p : Effect σ ε α) (s : σ) : Except ε α × σ := (ExceptT.run p).run s

/-- Changes the state. -/
def update (f : σ → σ) : Effect σ ε Unit := modify f

/-- An effect on a part of the state. -/
def within (get : σ → τ) (put : τ → σ → σ) (p : Effect τ ε α) : Effect σ ε α :=
  ExceptT.mk fun s =>
    let (r, t) := p.outcome (get s)
    (r, put t s)

/-- Runs an effect and then, however it ends, the destructor of a local variable. -/
def guarded (p : Effect σ ε α) (destroy : σ → σ) : Effect σ ε α :=
  ExceptT.mk fun s =>
    let (r, t) := p.outcome s
    (r, destroy t)

/-- Runs an effect, and a destructor if it throws. -/
def unwinding (p : Effect σ ε α) (destroy : σ → σ) : Effect σ ε α :=
  ExceptT.mk fun s =>
    match p.outcome s with
    | (.ok a, t) => (.ok a, t)
    | (.error e, t) => (.error e, destroy t)

variable (p : Effect σ ε α) (f : α → Effect σ ε β) (s : σ)

@[simp] theorem outcome_pure (a : α) : outcome (pure a : Effect σ ε α) s = (.ok a, s) :=
  rfl

@[simp] theorem outcome_throw (e : ε) : outcome (throw e : Effect σ ε α) s = (.error e, s) :=
  rfl

@[simp] theorem outcome_update (g : σ → σ) :
    outcome (update g : Effect σ ε Unit) s = (.ok (), g s) :=
  rfl

@[simp] theorem outcome_within (get : σ → τ) (put : τ → σ → σ) (q : Effect τ ε α) :
    (within get put q).outcome s = ((q.outcome (get s)).1, put (q.outcome (get s)).2 s) :=
  rfl

@[simp] theorem outcome_guarded (destroy : σ → σ) :
    (p.guarded destroy).outcome s = ((p.outcome s).1, destroy (p.outcome s).2) :=
  rfl

theorem outcome_unwinding (destroy : σ → σ) : (p.unwinding destroy).outcome s =
    match p.outcome s with
    | (.ok a, t) => (.ok a, t)
    | (.error e, t) => (.error e, destroy t) :=
  rfl

theorem outcome_unwinding_of_ok (destroy : σ → σ) {a : α} {t : σ} (h : p.outcome s = (.ok a, t)) :
    (p.unwinding destroy).outcome s = (.ok a, t) := by
  rw [outcome_unwinding, h]

theorem outcome_unwinding_of_error (destroy : σ → σ) {e : ε} {t : σ}
    (h : p.outcome s = (.error e, t)) : (p.unwinding destroy).outcome s = (.error e, destroy t) := by
  rw [outcome_unwinding, h]

theorem outcome_bind : (p >>= f).outcome s =
    match p.outcome s with
    | (.ok a, t) => (f a).outcome t
    | (.error e, t) => (.error e, t) := by
  rw [outcome, ExceptT.run_bind]
  change (match p.outcome s with
    | (r, t) => ((match r with
      | .ok a => (f a).run
      | .error e => pure (.error e) : StateM σ (Except ε β))).run t) = _
  obtain ⟨r, t⟩ := p.outcome s
  cases r <;> rfl

theorem outcome_bind_of_ok {a : α} {t : σ} (h : p.outcome s = (.ok a, t)) :
    (p >>= f).outcome s = (f a).outcome t := by
  rw [outcome_bind, h]

theorem outcome_bind_of_error {e : ε} {t : σ} (h : p.outcome s = (.error e, t)) :
    (p >>= f).outcome s = (.error e, t) := by
  rw [outcome_bind, h]

end Effect

namespace Program

variable {κ ε : Type}

/-- Makes a call; the result is the list of all calls made so far. -/
def call (c : κ) : Program κ ε (List κ) := do
  modify (· ++ [c])
  get

@[simp] theorem outcome_call (c : κ) (calls : List κ) :
    (call c : Program κ ε (List κ)).outcome calls = (.ok (calls ++ [c]), calls ++ [c]) :=
  rfl

end Program

/-- What can be read at `text.c_str()`: a C string ends before its first NUL. -/
def cText (text : String) : String := String.ofList (text.toList.takeWhile (· ≠ Char.ofNat 0))

@[simp] theorem cText_cText (text : String) : cText (cText text) = cText text := by
  simp only [cText, String.toList_ofList, List.takeWhile_idem]

end NatsCpp
