import NatsCpp.NativeCalls
import Mathlib.Data.Nat.Notation

/-!
# Errors of native calls

`nats_error` and `throw_on_error`, for programs that record calls of any type.
What nats.c answers is a function of the calls made so far.
-/
namespace NatsCpp

/-- The values of `natsStatus` that the wrapper names, and the others. -/
inductive Status where
  | ok
  | invalidArg
  | illegalState
  | other (code : ℕ)
  deriving DecidableEq

/-- The exceptions that the wrapper throws, with their texts. -/
inductive Error where
  | natsError (status : Status) (message : String)
  | invalidArgument (message : String)
  deriving DecidableEq

/-- The texts that nats.c has for a status and for the last error of the thread. -/
structure ErrorTexts (κ : Type) where
  statusText : Status → Option String
  lastError : List κ → Option String

/-- The message of `throw_on_error` for a status that is not `NATS_OK`. -/
def errorMessage (context text last : Option String) : String :=
  context.getD "nats error"
    ++ (match text with
      | some text => ": " ++ text
      | none => "")
    ++ (match last with
      | some last => if last = "" then "" else " | " ++ last
      | none => "")

section ThrowOnError

variable {κ : Type} (texts : ErrorTexts κ)

def throwOnError (status : Status) (context : Option String) : Program κ Error Unit := do
  if status = .ok then
    pure ()
  else
    let calls ← get
    throw (.natsError status (errorMessage context (texts.statusText status) (texts.lastError calls)))

variable (status : Status) (context : Option String) (calls : List κ)

/-- The exception that `throw_on_error` throws after some calls. -/
def nativeError : Error :=
  .natsError status (errorMessage context (texts.statusText status) (texts.lastError calls))

@[simp] theorem outcome_throwOnError_ok :
    (throwOnError texts .ok context).outcome calls = (.ok (), calls) :=
  rfl

theorem outcome_throwOnError_of_ne (h : status ≠ .ok) : (throwOnError texts status context).outcome
    calls = (.error (nativeError texts status context calls), calls) := by
  rw [throwOnError, if_neg h]
  rfl

section Checked

variable {α : Type} (status : List κ → Status) (c : κ) (f : List κ → Program κ Error α)

/-- A call whose status is checked, and what follows it. -/
theorem outcome_checked_ok (h : status (calls ++ [c]) = .ok) :
    Effect.outcome (do
      let calls ← Program.call c
      throwOnError texts (status calls) context
      f calls) calls = (f (calls ++ [c])).outcome (calls ++ [c]) := by
  rw [Effect.outcome_bind, Program.outcome_call]
  show Effect.outcome (throwOnError texts (status (calls ++ [c])) context >>= _) (calls ++ [c]) = _
  rw [h, Effect.outcome_bind, outcome_throwOnError_ok]

theorem outcome_checked_of_ne (h : status (calls ++ [c]) ≠ .ok) :
    Effect.outcome (do
      let calls ← Program.call c
      throwOnError texts (status calls) context
      f calls) calls = (.error (nativeError texts (status (calls ++ [c])) context (calls ++ [c])),
        calls ++ [c]) := by
  rw [Effect.outcome_bind, Program.outcome_call]
  show Effect.outcome (throwOnError texts (status (calls ++ [c])) context >>= _) (calls ++ [c]) = _
  rw [Effect.outcome_bind, outcome_throwOnError_of_ne _ _ _ _ h]

/-- It is made once, whatever it returns. -/
theorem calls_of_checked (result : List κ → α) :
    (Effect.outcome (do
      let calls ← Program.call c
      throwOnError texts (status calls) context
      pure (result calls)) calls).2 = calls ++ [c] := by
  by_cases h : status (calls ++ [c]) = .ok
  · rw [outcome_checked_ok texts context calls status c _ h, Effect.outcome_pure]
  · rw [outcome_checked_of_ne texts context calls status c _ h]

end Checked

end ThrowOnError

end NatsCpp
