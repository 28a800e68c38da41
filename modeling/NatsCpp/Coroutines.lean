import NatsCpp.FutureAwaitable
import NatsCpp.PayloadLength

/-!
# Coroutines that await their requests

`co_await conn.request_awaitable(..)` keeps the awaitable as a temporary in the
frame of the coroutine. The language evaluates `await_ready`. If that is false,
the coroutine is suspended and `await_suspend` gets its handle; if it is true,
or when the coroutine has been resumed, `await_resume` yields the value of the
expression, at the end of which the temporary is destroyed.

Any number of coroutines run here beside their tasks, their workers and other
threads. They do what threads would do that call `request_sync` instead. A
coroutine that is destroyed while it is suspended does not occur here.
-/
namespace NatsCpp.Coroutine
open Messaging

/-- What a request yields, or the exception that it throws. -/
abbrev Result := Except Error (Option ℕ)

/-- The text of a `std::invalid_argument` names the function that has thrown it; a coroutine does
not read it. -/
def seen : Result → Result
  | .error (.invalidArgument _) => .error (.invalidArgument "")
  | r => r

/-- The arguments of a request, with the native connection of the object it is made on. -/
structure Request where
  conn : Option ℕ
  subject : String
  payload : Payload
  timeout : Int64

/-- The body of a coroutine: its next request, after the results of those before. -/
abbrev Body := List Result → Option Request

/-- Before the native call, during the call, and when the future is ready. -/
inductive Progress where
  | waiting
  | calling (result : Result)
  | returned (result : Result)

/-- A `co_await` expression: its task, and the temporary awaitable as copy 0. -/
structure Await where
  task : Program Call Error (Option ℕ)
  progress : Progress
  shared : FutureAwaitable.State

/-- How far the evaluation of a `co_await` has come. -/
inductive Point where
  | starting
  | suspending
  | suspended
  | resumed

inductive Phase where
  | running
  | awaiting (point : Point) (await : Await)
  | finished

structure State where
  results : List Result := []
  phase : Phase := .running

/-- The effects of a coroutine, of its task and of its worker. -/
inductive Move where
  | body
  | call
  | ret
  | awaitReady
  | awaitSuspend
  | waitReturns
  | compareExchange
  | resume
  | awaitResume

section Moves

variable (answers : Answers)

def Request.sync (r : Request) : Program Call Error (Option ℕ) :=
  requestSync answers r.conn r.subject r.payload r.timeout

def Request.async (r : Request) : Program Call Error (Program Call Error (Option ℕ)) :=
  requestAsync answers r.conn r.subject r.payload r.timeout

/-- The body runs up to its next `co_await`, and `request_awaitable` is called. -/
def runBody (body : Body) (calls : List Call) (c : State) : Option (List Call × State) :=
  match c.phase with
  | .running =>
    match body c.results with
    | none => some (calls, { c with phase := .finished })
    | some r =>
      match (r.async answers).outcome calls with
      | (.error e, calls) => some (calls, { c with results := c.results ++ [seen (.error e)] })
      | (.ok task, calls) => some (calls, { c with
          phase := .awaiting .starting ⟨task, .waiting, FutureAwaitable.initial⟩ })
  | _ => none

/-- The task makes its native call. -/
def callNative (calls : List Call) (c : State) : Option (List Call × State) :=
  match c.phase with
  | .awaiting p a =>
    match a.progress with
    | .waiting =>
      let (result, calls) := a.task.outcome calls
      some (calls, { c with phase := .awaiting p { a with progress := .calling result } })
    | _ => none
  | _ => none

/-- The native call returns, and the future is ready. -/
def returnNative (c : State) : Option State :=
  match c.phase with
  | .awaiting p a =>
    match a.progress with
    | .calling result => (FutureAwaitable.becomeReady a.shared).map fun shared => { c with
        phase := .awaiting p { a with progress := .returned result, shared := shared } }
    | _ => none
  | _ => none

def awaitReady (c : State) : Option State :=
  match c.phase with
  | .awaiting .starting a => some { c with
      phase := .awaiting (if a.shared.ready then .resumed else .suspending) a }
  | _ => none

def awaitSuspend (c : State) : Option State :=
  match c.phase with
  | .awaiting .suspending a => (FutureAwaitable.awaitSuspend a.shared 0 0).map fun shared =>
      { c with phase := .awaiting .suspended { a with shared := shared } }
  | _ => none

/-- A step of the worker of a suspended coroutine. -/
def worker (f : FutureAwaitable.State → ℕ → Option FutureAwaitable.State) (next : Point)
    (c : State) : Option State :=
  match c.phase with
  | .awaiting .suspended a => (f a.shared 0).map fun shared =>
      { c with phase := .awaiting next { a with shared := shared } }
  | _ => none

/-- `await_resume`, whose `get` blocks until the future is ready, and the end of the temporary. -/
def awaitResume (c : State) : Option State :=
  match c.phase with
  | .awaiting .resumed a =>
    match a.shared.ready, a.progress with
    | true, .returned result => (FutureAwaitable.destroy a.shared 0).map fun _ =>
        ⟨c.results ++ [seen result], .running⟩
    | _, _ => none
  | _ => none

def advance (body : Body) (calls : List Call) (c : State) : Move → Option (List Call × State)
  | .body => runBody answers body calls c
  | .call => callNative calls c
  | .ret => (returnNative c).map (calls, ·)
  | .awaitReady => (awaitReady c).map (calls, ·)
  | .awaitSuspend => (awaitSuspend c).map (calls, ·)
  | .waitReturns => (worker FutureAwaitable.waitReturns .suspended c).map (calls, ·)
  | .compareExchange => (worker FutureAwaitable.compareExchange .suspended c).map (calls, ·)
  | .resume => (worker FutureAwaitable.resume .resumed c).map (calls, ·)
  | .awaitResume => (awaitResume c).map (calls, ·)

/-! ## The two machines -/

/-- All coroutines, with the calls of nats.c made so far on all threads. -/
structure World where
  calls : List Call
  coroutines : ℕ → State

/-- A call of nats.c by another thread, or a move of a coroutine. -/
inductive Action where
  | other (c : Call)
  | move (i : ℕ) (m : Move)

def step (bodies : ℕ → Body) (s : World) : Action → Option World
  | .other c => some { s with calls := s.calls ++ [c] }
  | .move i m => (advance answers (bodies i) s.calls (s.coroutines i) m).map fun (calls, c) =>
      ⟨calls, Function.update s.coroutines i c⟩

def machine (bodies : ℕ → Body) : Machine World Action :=
  ⟨⟨[], fun _ => {}⟩, step answers bodies⟩

/-- The same bodies on threads of their own, with `request_sync`. -/
structure Threads where
  calls : List Call
  results : ℕ → List Result

inductive ThreadAction where
  | other (c : Call)
  | request (i : ℕ)

def threadStep (bodies : ℕ → Body) (s : Threads) : ThreadAction → Option Threads
  | .other c => some { s with calls := s.calls ++ [c] }
  | .request i => (bodies i (s.results i)).map fun r =>
      let (result, calls) := (r.sync answers).outcome s.calls
      ⟨calls, Function.update s.results i (s.results i ++ [seen result])⟩

def threads (bodies : ℕ → Body) : Machine Threads ThreadAction :=
  ⟨⟨[], fun _ => []⟩, threadStep answers bodies⟩

end Moves

/-! ## What a move changes -/

section Inversion

variable (answers : Answers) (body : Body) (calls : List Call) (c : State)

/-- The moves, with the facts that enable them. -/
inductive Fires : Move → List Call → State → Prop where
  | finish (hphase : c.phase = .running) (hbody : body c.results = none) :
      Fires .body calls { c with phase := .finished }
  | reject {r : Request} {e : Error} (hphase : c.phase = .running)
      (hbody : body c.results = some r) (hasync : (r.async answers).outcome calls = (.error e, calls))
      (hsize : r.payload.size > intMax) :
      Fires .body calls { c with results := c.results ++ [seen (.error e)] }
  | start {r : Request} (hphase : c.phase = .running) (hbody : body c.results = some r)
      (hsize : ¬ r.payload.size > intMax) :
      Fires .body calls { c with
        phase := .awaiting .starting
          ⟨natsConnectionRequest answers r.conn r.subject r.payload r.timeout, .waiting,
            FutureAwaitable.initial⟩ }
  | call {p : Point} {a : Await} (hphase : c.phase = .awaiting p a)
      (hwaiting : a.progress = .waiting) :
      Fires .call (a.task.outcome calls).2 { c with
        phase := .awaiting p { a with progress := .calling (a.task.outcome calls).1 } }
  | ret {p : Point} {a : Await} {result : Result} (hphase : c.phase = .awaiting p a)
      (hcalling : a.progress = .calling result) :
      Fires .ret calls { c with phase := .awaiting p { a with
        progress := .returned result
        shared := { a.shared with ready := true } } }
  | ready {a : Await} (hphase : c.phase = .awaiting .starting a)
      (hready : a.shared.ready = true) :
      Fires .awaitReady calls { c with phase := .awaiting .resumed a }
  | notReady {a : Await} (hphase : c.phase = .awaiting .starting a) :
      Fires .awaitReady calls { c with phase := .awaiting .suspending a }
  | suspend {a : Await} (hphase : c.phase = .awaiting .suspending a) :
      Fires .awaitSuspend calls { c with phase := .awaiting .suspended { a with
        shared := { a.shared with
          workers := Function.update a.shared.workers 0 (some ⟨0, .waiting⟩) } } }
  | waitReturns {a : Await} {x : ℕ} (hphase : c.phase = .awaiting .suspended a)
      (hworker : a.shared.workers 0 = some ⟨x, .waiting⟩) (hready : a.shared.ready = true) :
      Fires .waitReturns calls { c with phase := .awaiting .suspended { a with
        shared := { a.shared with
          workers := Function.update a.shared.workers 0 (some ⟨x, .claiming⟩) } } }
  | claim {a : Await} {x : ℕ} (hphase : c.phase = .awaiting .suspended a)
      (hworker : a.shared.workers 0 = some ⟨x, .claiming⟩) (halive : a.shared.alive = true) :
      Fires .compareExchange calls { c with phase := .awaiting .suspended { a with
        shared := { a.shared with
          alive := false
          workers := Function.update a.shared.workers 0 (some ⟨x, .resuming⟩) } } }
  | lose {a : Await} {x : ℕ} (hphase : c.phase = .awaiting .suspended a)
      (hworker : a.shared.workers 0 = some ⟨x, .claiming⟩) (halive : a.shared.alive = false) :
      Fires .compareExchange calls { c with phase := .awaiting .suspended { a with
        shared := { a.shared with
          alive := false
          workers := Function.update a.shared.workers 0 (some ⟨x, .lost⟩) } } }
  | resume {a : Await} {x : ℕ} (hphase : c.phase = .awaiting .suspended a)
      (hworker : a.shared.workers 0 = some ⟨x, .resuming⟩) :
      Fires .resume calls { c with phase := .awaiting .resumed { a with
        shared := { a.shared with
          workers := Function.update a.shared.workers 0 (some ⟨x, .resumed⟩)
          resumes := a.shared.resumes + 1 } } }
  | awaitResume {a : Await} {result : Result} (hphase : c.phase = .awaiting .resumed a)
      (hreturned : a.progress = .returned result) :
      Fires .awaitResume calls ⟨c.results ++ [seen result], .running⟩

variable {answers body calls c}

theorem fires_of_runBody {calls' : List Call} {c' : State}
    (h : runBody answers body calls c = some (calls', c')) :
    Fires answers body calls c .body calls' c' := by
  unfold runBody at h
  split at h
  · rename_i hphase
    cases hbody : body c.results with
    | none =>
      simp only [hbody, Option.some.injEq, Prod.mk.injEq] at h
      obtain ⟨rfl, rfl⟩ := h
      exact .finish hphase hbody
    | some r =>
      simp only [hbody] at h
      by_cases hsize : r.payload.size > intMax
      · have hcheck := outcome_checkSize_of_gt r.payload "request_async: payload exceeds INT_MAX bytes"
          hsize calls
        have hasync : (r.async answers).outcome calls = (.error _, calls) :=
          Effect.outcome_bind_of_error _ _ _ hcheck
        rw [hasync] at h
        simp only [Option.some.injEq, Prod.mk.injEq] at h
        obtain ⟨rfl, rfl⟩ := h
        exact .reject hphase hbody hasync hsize
      · have hcheck := outcome_checkSize_of_le r.payload "request_async: payload exceeds INT_MAX bytes"
          hsize calls
        have hasync : (r.async answers).outcome calls = (.ok _, calls) :=
          Effect.outcome_bind_of_ok _ _ _ hcheck
        rw [hasync] at h
        simp only [Option.some.injEq, Prod.mk.injEq] at h
        obtain ⟨rfl, rfl⟩ := h
        exact .start hphase hbody hsize
  · contradiction

theorem fires_of_worker {f : FutureAwaitable.State → ℕ → Option FutureAwaitable.State}
    {next : Point} {c' : State} (h : worker f next c = some c') :
    ∃ a shared, c.phase = .awaiting .suspended a ∧ f a.shared 0 = some shared ∧
      c' = { c with phase := .awaiting next { a with shared := shared } } := by
  unfold worker at h
  split at h
  · rename_i a hphase
    obtain ⟨shared, hshared, rfl⟩ := Option.map_eq_some_iff.mp h
    exact ⟨a, shared, hphase, hshared, rfl⟩
  · contradiction

theorem fires_of_advance {m : Move} {calls' : List Call} {c' : State}
    (h : advance answers body calls c m = some (calls', c')) :
    Fires answers body calls c m calls' c' := by
  have hmap {o : Option State} (ho : o.map (calls, ·) = some (calls', c')) :
      calls' = calls ∧ o = some c' := by
    obtain ⟨d, hd, heq⟩ := Option.map_eq_some_iff.mp ho
    obtain ⟨rfl, rfl⟩ := Prod.mk.inj heq
    exact ⟨rfl, hd⟩
  cases m with
  | body => exact fires_of_runBody h
  | call =>
    simp only [advance, callNative] at h
    split at h
    · rename_i p a hphase
      split at h
      · rename_i hwaiting
        simp only [Option.some.injEq, Prod.mk.injEq] at h
        obtain ⟨rfl, rfl⟩ := h
        exact .call hphase hwaiting
      · contradiction
    · contradiction
  | ret =>
    obtain ⟨rfl, hmove⟩ := hmap h
    simp only [returnNative] at hmove
    split at hmove
    · rename_i p a hphase
      split at hmove
      · rename_i result hcalling
        obtain ⟨shared, hshared, rfl⟩ := Option.map_eq_some_iff.mp hmove
        cases FutureAwaitable.fires_of_step (a := .becomeReady) hshared with
        | becomeReady => exact .ret hphase hcalling
      · contradiction
    · contradiction
  | awaitReady =>
    obtain ⟨rfl, hmove⟩ := hmap h
    simp only [awaitReady] at hmove
    split at hmove
    · rename_i a hphase
      obtain rfl := Option.some.inj hmove
      cases hready : a.shared.ready with
      | true => exact .ready hphase hready
      | false => exact .notReady hphase
    · contradiction
  | awaitSuspend =>
    obtain ⟨rfl, hmove⟩ := hmap h
    simp only [awaitSuspend] at hmove
    split at hmove
    · rename_i a hphase
      obtain ⟨shared, hshared, rfl⟩ := Option.map_eq_some_iff.mp hmove
      cases FutureAwaitable.fires_of_step (a := .awaitSuspend 0 0) hshared with
      | awaitSuspend => exact .suspend hphase
    · contradiction
  | waitReturns =>
    obtain ⟨rfl, hmove⟩ := hmap h
    obtain ⟨a, shared, hphase, hshared, rfl⟩ := fires_of_worker hmove
    cases FutureAwaitable.fires_of_step (a := .waitReturns 0) hshared with
    | waitReturns hworker hready => exact .waitReturns hphase hworker hready
  | compareExchange =>
    obtain ⟨rfl, hmove⟩ := hmap h
    obtain ⟨a, shared, hphase, hshared, rfl⟩ := fires_of_worker hmove
    cases FutureAwaitable.fires_of_step (a := .compareExchange 0) hshared with
    | claim hworker halive => exact .claim hphase hworker halive
    | lose hworker halive => exact .lose hphase hworker halive
  | resume =>
    obtain ⟨rfl, hmove⟩ := hmap h
    obtain ⟨a, shared, hphase, hshared, rfl⟩ := fires_of_worker hmove
    cases FutureAwaitable.fires_of_step (a := .resume 0) hshared with
    | resume hworker => exact .resume hphase hworker
  | awaitResume =>
    obtain ⟨rfl, hmove⟩ := hmap h
    simp only [awaitResume] at hmove
    split at hmove
    · rename_i a hphase
      split at hmove
      · rename_i result hready hreturned
        obtain ⟨shared, -, rfl⟩ := Option.map_eq_some_iff.mp hmove
        exact .awaitResume hphase hreturned
      · contradiction
    · contradiction

end Inversion

/-! ## What every run keeps of an await -/

/-- What the point of the evaluation says about the shared state: a worker that goes for the claim
finds the flag up, since the temporary is not destroyed before the coroutine goes on. -/
def Point.Protocol (s : FutureAwaitable.State) : Point → Prop
  | .starting | .suspending => s.alive = true ∧ s.workers 0 = none
  | .suspended => ∃ pc, s.workers 0 = some ⟨0, pc⟩ ∧
      (pc = .waiting ∧ s.alive = true ∨ pc = .claiming ∧ s.alive = true ∧ s.ready = true ∨
        pc = .resuming ∧ s.ready = true)
  | .resumed => s.ready = true

structure Await.Sound (answers : Answers) (body : Body) (results : List Result) (p : Point)
    (a : Await) : Prop where
  task : ∃ r, body results = some r ∧ ¬ r.payload.size > intMax ∧
    a.task = natsConnectionRequest answers r.conn r.subject r.payload r.timeout
  present : a.shared.copies 0 = some .present
  ready : a.shared.ready = true ↔ ∃ result, a.progress = .returned result
  point : p.Protocol a.shared

def State.Sound (answers : Answers) (body : Body) (c : State) : Prop :=
  ∀ p a, c.phase = .awaiting p a → a.Sound answers body c.results p

section Steps

variable {answers : Answers} {body : Body} {calls calls' : List Call} {c c' : State}

/-- The next step of the await `a`. -/
theorem State.Sound.proceed {p p' : Point} {a a' : Await} (h : c.Sound answers body)
    (hphase : c.phase = .awaiting p a) (htask : a'.task = a.task)
    (hcopies : a'.shared.copies = a.shared.copies)
    (hready : a'.shared.ready = true ↔ ∃ result, a'.progress = .returned result)
    (hpoint : p'.Protocol a'.shared) :
    State.Sound answers body { c with phase := .awaiting p' a' } := by
  rintro q b ⟨rfl, rfl⟩
  have hsound := h p a hphase
  exact ⟨htask ▸ hsound.task, hcopies ▸ hsound.present, hready, hpoint⟩

theorem State.Sound.fires {m : Move} (h : c.Sound answers body)
    (hf : Fires answers body calls c m calls' c') : c'.Sound answers body := by
  have hnew (a : Await) (pc : FutureAwaitable.Pc) :
      Function.update a.shared.workers 0 (some ⟨0, pc⟩) 0 = some ⟨0, pc⟩ :=
    Function.update_self ..
  cases hf with
  | finish hphase => rintro p a ⟨⟩
  | reject hphase =>
    rintro p a hawaiting
    exact absurd (hphase.symm.trans hawaiting) (by simp)
  | awaitResume => rintro p a ⟨⟩
  | start hphase hbody hsize =>
    rintro p a ⟨rfl, rfl⟩
    exact ⟨⟨_, hbody, hsize, rfl⟩, rfl, by simp [FutureAwaitable.initial], rfl, rfl⟩
  | @call p a hphase hwaiting =>
    have hsound := h p a hphase
    refine h.proceed hphase rfl rfl ?_ hsound.point
    have hready := hsound.ready
    rw [hwaiting] at hready
    simpa using hready
  | @ret p a result hphase hcalling =>
    refine h.proceed hphase rfl rfl (by simp) ?_
    have hpoint := (h p a hphase).point
    cases p with
    | starting | suspending => exact hpoint
    | suspended =>
      obtain ⟨pc, hworker, ⟨rfl, halive⟩ | ⟨rfl, halive, -⟩ | ⟨rfl, -⟩⟩ := hpoint
      · exact ⟨_, hworker, .inl ⟨rfl, halive⟩⟩
      · exact ⟨_, hworker, .inr (.inl ⟨rfl, halive, rfl⟩)⟩
      · exact ⟨_, hworker, .inr (.inr ⟨rfl, rfl⟩)⟩
    | resumed => exact rfl
  | ready hphase hready => exact h.proceed hphase rfl rfl (h _ _ hphase).ready hready
  | notReady hphase => exact h.proceed hphase rfl rfl (h _ _ hphase).ready (h _ _ hphase).point
  | @suspend a hphase =>
    obtain ⟨halive, -⟩ := (h _ _ hphase).point
    exact h.proceed hphase rfl rfl (h _ _ hphase).ready
      ⟨.waiting, hnew a .waiting, .inl ⟨rfl, halive⟩⟩
  | @waitReturns a x hphase hworker hready =>
    obtain ⟨pc, hpc, hcases⟩ := (h _ _ hphase).point
    obtain ⟨rfl, rfl⟩ := FutureAwaitable.Worker.mk.inj (Option.some.inj (hpc.symm.trans hworker))
    obtain ⟨-, halive⟩ | ⟨hne, -⟩ | ⟨hne, -⟩ := hcases
    · exact h.proceed hphase rfl rfl (h _ _ hphase).ready
        ⟨.claiming, hnew a .claiming, .inr (.inl ⟨rfl, halive, hready⟩)⟩
    · contradiction
    · contradiction
  | @claim a x hphase hworker halive =>
    obtain ⟨pc, hpc, hcases⟩ := (h _ _ hphase).point
    obtain ⟨rfl, rfl⟩ := FutureAwaitable.Worker.mk.inj (Option.some.inj (hpc.symm.trans hworker))
    obtain ⟨hne, -⟩ | ⟨-, -, hready⟩ | ⟨hne, -⟩ := hcases
    · contradiction
    · exact h.proceed hphase rfl rfl (h _ _ hphase).ready
        ⟨.resuming, hnew a .resuming, .inr (.inr ⟨rfl, hready⟩)⟩
    · contradiction
  | @lose a x hphase hworker halive =>
    -- the flag of a temporary is up as long as its coroutine is suspended
    obtain ⟨pc, hpc, hcases⟩ := (h _ _ hphase).point
    obtain ⟨rfl, rfl⟩ := FutureAwaitable.Worker.mk.inj (Option.some.inj (hpc.symm.trans hworker))
    obtain ⟨hne, -⟩ | ⟨-, hup, -⟩ | ⟨hne, -⟩ := hcases
    · contradiction
    · rw [halive] at hup
      contradiction
    · contradiction
  | @resume a x hphase hworker =>
    obtain ⟨pc, hpc, hcases⟩ := (h _ _ hphase).point
    obtain ⟨rfl, rfl⟩ := FutureAwaitable.Worker.mk.inj (Option.some.inj (hpc.symm.trans hworker))
    obtain ⟨hne, -⟩ | ⟨hne, -⟩ | ⟨-, hready⟩ := hcases
    · contradiction
    · contradiction
    · exact h.proceed hphase rfl rfl (h _ _ hphase).ready hready

end Steps

/-! ## The threads that the coroutines stand for -/

/-- The result of the native call that has been made for the current `co_await`. -/
def State.pending (c : State) : List Result :=
  match c.phase with
  | .awaiting _ a =>
    match a.progress with
    | .waiting => []
    | .calling result | .returned result => [seen result]
  | _ => []

/-- The results of all the requests that the coroutine has made. -/
def State.given (c : State) : List Result := c.results ++ c.pending

section Refinement

variable {answers : Answers} {body : Body} {calls calls' : List Call} {c c' : State}

/-- A move either shows nothing to the outside, or does what `request_sync` does. -/
theorem State.Sound.matched {m : Move} (h : c.Sound answers body)
    (hf : Fires answers body calls c m calls' c') :
    (calls' = calls ∧ c'.given = c.given) ∨
      ∃ r, body c.given = some r ∧ calls' = ((r.sync answers).outcome calls).2 ∧
        c'.given = c.given ++ [seen ((r.sync answers).outcome calls).1] := by
  cases hf with
  | finish hphase | start hphase => exact .inl ⟨rfl, by simp [State.given, State.pending, hphase]⟩
  | ret hphase hprogress | awaitResume hphase hprogress =>
    exact .inl ⟨rfl, by simp [State.given, State.pending, hphase, hprogress]⟩
  | ready hphase | notReady hphase | suspend hphase | waitReturns hphase | claim hphase
  | lose hphase | resume hphase =>
    exact .inl ⟨rfl, by simp [State.given, State.pending, hphase]⟩
  | @reject r e hphase hbody hasync hsize =>
    have hgiven : c.given = c.results := by simp [State.given, State.pending, hphase]
    have hsync : (r.sync answers).outcome calls = (.error _, calls) :=
      Effect.outcome_bind_of_error _ _ _
        (outcome_checkSize_of_gt r.payload "request_sync: payload exceeds INT_MAX bytes" hsize calls)
    have hsame : (r.async answers).outcome calls = (.error _, calls) :=
      Effect.outcome_bind_of_error _ _ _
        (outcome_checkSize_of_gt r.payload "request_async: payload exceeds INT_MAX bytes" hsize calls)
    obtain rfl := Except.error.inj (Prod.mk.inj (hsame.symm.trans hasync)).1
    refine .inr ⟨r, hgiven ▸ hbody, by rw [hsync], ?_⟩
    rw [hsync, hgiven]
    simp [State.given, State.pending, hphase, seen]
  | @call p a hphase hwaiting =>
    obtain ⟨r, hbody, hsize, htask⟩ := (h p a hphase).task
    have hgiven : c.given = c.results := by simp [State.given, State.pending, hphase, hwaiting]
    have hsync : (r.sync answers).outcome calls = a.task.outcome calls := by
      rw [htask]
      exact Effect.outcome_bind_of_ok _ _ _
        (outcome_checkSize_of_le r.payload "request_sync: payload exceeds INT_MAX bytes" hsize calls)
    refine .inr ⟨r, hgiven ▸ hbody, by rw [hsync], ?_⟩
    rw [hsync, hgiven]
    simp [State.given, State.pending]

variable {bodies : ℕ → Body} {s t : World}

theorem fires_of_step {i : ℕ} {m : Move} (h : step answers bodies s (.move i m) = some t) :
    ∃ calls c, Fires answers (bodies i) s.calls (s.coroutines i) m calls c ∧
      t = ⟨calls, Function.update s.coroutines i c⟩ := by
  obtain ⟨⟨calls, c⟩, hadvance, rfl⟩ := Option.map_eq_some_iff.mp h
  exact ⟨calls, c, fires_of_advance hadvance, rfl⟩

/-- All awaits are sound in every run. -/
theorem sound_invariant : (machine answers bodies).Invariant Machine.Free fun s =>
    ∀ i, (s.coroutines i).Sound answers (bodies i) where
  init := by
    intro i p a hphase
    contradiction
  step := by
    intro s a t h _ ht i
    cases a with
    | other => exact Option.some.inj ht ▸ h i
    | move j m =>
      obtain ⟨calls, c, hfires, rfl⟩ := fires_of_step ht
      obtain rfl | hne := eq_or_ne i j
      · simpa only [Function.update_self] using (h i).fires hfires
      · simpa only [Function.update_of_ne hne] using h i

/-- The threads have made the same calls, and have all the results of the coroutines. -/
structure Related (answers : Answers) (bodies : ℕ → Body) (s : World) (u : Threads) : Prop where
  sound : ∀ i, (s.coroutines i).Sound answers (bodies i)
  calls : u.calls = s.calls
  results : ∀ i, u.results i = (s.coroutines i).given

theorem simulation : (machine answers bodies).Simulation (threads answers bodies)
    (Related answers bodies) where
  init := ⟨sound_invariant.init, rfl, fun i => rfl⟩
  step := by
    intro s a t u h ht
    have hsound := sound_invariant.step h.sound trivial ht
    cases a with
    | other c =>
      obtain rfl := Option.some.inj ht
      exact ⟨[.other c], { u with calls := u.calls ++ [c] }, rfl,
        ⟨hsound, by rw [h.calls], h.results⟩⟩
    | move i m =>
      obtain ⟨calls, c, hfires, rfl⟩ := fires_of_step ht
      have hothers {j : ℕ} (hne : j ≠ i) :
          u.results j = (Function.update s.coroutines i c j).given := by
        rw [Function.update_of_ne hne, h.results j]
      obtain ⟨rfl, hgiven⟩ | ⟨r, hbody, rfl, hgiven⟩ := (h.sound i).matched hfires
      · refine ⟨[], u, rfl, hsound, h.calls, fun j => ?_⟩
        obtain rfl | hne := eq_or_ne j i
        · simp only [Function.update_self, hgiven, h.results j]
        · exact hothers hne
      · have hstep : (threads answers bodies).step u (.request i) = some
            ⟨((r.sync answers).outcome s.calls).2, Function.update u.results i c.given⟩ := by
          simp only [threads, threadStep, h.results i, hbody, h.calls, hgiven, Option.map_some]
        refine ⟨[.request i], _, by rw [Machine.run, hstep]; rfl, hsound, rfl, fun j => ?_⟩
        obtain rfl | hne := eq_or_ne j i
        · simp only [Function.update_self]
        · simp only [Function.update_of_ne hne, hothers hne]

/-- Coroutines do what threads would do that call `request_sync`: these can make the same calls
of nats.c in the same order, and get the same results. -/
theorem coawait_refines (answers : Answers) (bodies : ℕ → Body) (as : List Action) :
    (machine answers bodies).Throughout (fun s => ∃ bs u,
      (threads answers bodies).run (threads answers bodies).init bs = some u ∧
        u.calls = s.calls ∧ ∀ i, u.results i = (s.coroutines i).given)
      (machine answers bodies).init as := by
  have hinvariant := Machine.Simulation.invariant (simulation : (machine answers bodies).Simulation
    (threads answers bodies) (Related answers bodies))
  refine (hinvariant.throughout hinvariant.init as).mono fun s h => ?_
  obtain ⟨bs, u, hu, hrelated⟩ := h
  exact ⟨bs, u, hu, hrelated.calls, hrelated.results⟩

end Refinement

/-! ## Every await comes to its end -/

def Progress.remaining : Progress → ℕ
  | .waiting => 2
  | .calling _ => 1
  | .returned _ => 0

/-- The moves that are left until `await_resume` returns. -/
def Point.remaining (s : FutureAwaitable.State) : Point → ℕ
  | .starting => 6
  | .suspending => 5
  | .suspended =>
    match s.workers 0 with
    | some ⟨_, .waiting⟩ => 4
    | some ⟨_, .claiming⟩ => 3
    | some ⟨_, .resuming⟩ => 2
    | _ => 1
  | .resumed => 1

/-- The moves that are left of the current `co_await`. -/
def State.remaining (c : State) : ℕ :=
  match c.phase with
  | .awaiting p a => a.progress.remaining + p.remaining a.shared
  | _ => 0

/-- The action is a move of the coroutine. -/
def Action.moves (i : ℕ) : Action → Bool
  | .other _ => false
  | .move j _ => i = j

theorem State.remaining_le (c : State) : c.remaining ≤ 8 := by
  have hprogress (p : Progress) : p.remaining ≤ 2 := by
    cases p <;> simp [Progress.remaining]
  have hpoint (s : FutureAwaitable.State) (p : Point) : p.remaining s ≤ 6 := by
    cases p <;> simp only [Point.remaining] <;> (try split) <;> omega
  unfold State.remaining
  split
  · rename_i p a _
    exact Nat.add_le_add (hprogress a.progress) (hpoint a.shared p)
  · exact Nat.zero_le 8

section Completion

variable {answers : Answers} {body : Body} {calls calls' : List Call} {c c' : State}

theorem Fires.remaining_lt {m : Move} (hf : Fires answers body calls c m calls' c')
    (hm : m ≠ .body) : c'.remaining < c.remaining := by
  cases hf with
  | finish | reject | start => contradiction
  | call hphase hprogress | ret hphase hprogress | awaitResume hphase hprogress =>
    simp [State.remaining, hphase, hprogress, Progress.remaining, Point.remaining]
  | ready hphase | notReady hphase | suspend hphase =>
    simp [State.remaining, hphase, Point.remaining]
  | waitReturns hphase hworker | claim hphase hworker | lose hphase hworker
  | resume hphase hworker =>
    simp [State.remaining, hphase, Point.remaining, hworker]

/-- A coroutine goes on only when the future is ready, so that `get` does not block. -/
theorem State.Sound.awaitResume {a : Await} (h : c.Sound answers body)
    (hphase : c.phase = .awaiting .resumed a) :
    (advance answers body calls c .awaitResume).isSome := by
  obtain ⟨-, hpresent, hready, hpoint⟩ := h _ a hphase
  have hfuture : a.shared.ready = true := hpoint
  obtain ⟨result, hprogress⟩ := hready.mp hfuture
  simp [advance, Coroutine.awaitResume, hphase, hfuture, hprogress, FutureAwaitable.destroy,
    hpresent]

/-- The worker of a suspended coroutine finds the flag up. -/
theorem State.Sound.worker_ne_lost {a : Await} (h : c.Sound answers body)
    (hphase : c.phase = .awaiting .suspended a) :
    ∃ x, a.shared.workers 0 = some x ∧ x.pc ≠ .lost := by
  obtain ⟨pc, hworker, hcases⟩ := (h _ a hphase).point
  refine ⟨⟨0, pc⟩, hworker, ?_⟩
  obtain ⟨rfl, -⟩ | ⟨rfl, -⟩ | ⟨rfl, -⟩ := hcases <;> simp

/-- The next move of an await is enabled, whatever all others do. -/
theorem State.Sound.enabled {p : Point} {a : Await} (h : c.Sound answers body)
    (hphase : c.phase = .awaiting p a) :
    ∃ m, m ≠ .body ∧ (advance answers body calls c m).isSome := by
  obtain ⟨-, hpresent, hready, hpoint⟩ := h p a hphase
  cases hprogress : a.progress with
  | waiting => exact ⟨.call, by simp, by simp [advance, callNative, hphase, hprogress]⟩
  | calling result =>
    have hfuture : a.shared.ready = false := by simpa [hprogress] using hready
    exact ⟨.ret, by simp, by
      simp [advance, returnNative, hphase, hprogress, FutureAwaitable.becomeReady, hfuture]⟩
  | returned result =>
    have hfuture : a.shared.ready = true := hready.mpr ⟨result, hprogress⟩
    cases p with
    | starting => exact ⟨.awaitReady, by simp, by simp [advance, awaitReady, hphase]⟩
    | suspending =>
      obtain ⟨-, hworker⟩ := hpoint
      exact ⟨.awaitSuspend, by simp, by
        simp [advance, awaitSuspend, hphase, FutureAwaitable.awaitSuspend, hworker, hpresent]⟩
    | suspended =>
      obtain ⟨pc, hworker, ⟨rfl, -⟩ | ⟨rfl, -⟩ | ⟨rfl, -⟩⟩ := hpoint
      · exact ⟨.waitReturns, by simp, by
          simp [advance, worker, hphase, FutureAwaitable.waitReturns, hworker, hfuture]⟩
      · exact ⟨.compareExchange, by simp, by
          simp [advance, worker, hphase, FutureAwaitable.compareExchange, hworker]⟩
      · exact ⟨.resume, by simp, by
          simp [advance, worker, hphase, FutureAwaitable.resume, hworker]⟩
    | resumed => exact ⟨.awaitResume, by simp, h.awaitResume hphase⟩

variable {bodies : ℕ → Body} {s t : World}

/-- In every state some move of an awaiting coroutine is enabled: `get` does not block when
it has been resumed, and as long as it is suspended its worker has not lost the claim. Eight
moves end the `co_await`, however they are interleaved with those of all others. -/
theorem awaits_complete {as : List Action}
    (hs : (machine answers bodies).run (machine answers bodies).init as = some s) (i : ℕ) :
    (∀ p a, (s.coroutines i).phase = .awaiting p a →
      ∃ m, m ≠ .body ∧ (step answers bodies s (.move i m)).isSome) ∧
    (∀ a, (s.coroutines i).phase = .awaiting .resumed a →
      (step answers bodies s (.move i .awaitResume)).isSome) ∧
    (∀ a, (s.coroutines i).phase = .awaiting .suspended a →
      ∃ x, a.shared.workers 0 = some x ∧ x.pc ≠ .lost) ∧
    ∀ bs t, (machine answers bodies).run s bs = some t → .move i .body ∉ bs →
      bs.countP (Action.moves i) ≤ 8 := by
  have hsound := sound_invariant.run sound_invariant.init hs
  refine ⟨fun p a hphase => ?_, fun a hphase => ?_, fun a hphase => ?_, fun bs t ht hbody => ?_⟩
  · obtain ⟨m, hm, henabled⟩ : ∃ m, m ≠ .body ∧
        (advance answers (bodies i) s.calls (s.coroutines i) m).isSome := (hsound i).enabled hphase
    exact ⟨m, hm, by simpa [step] using henabled⟩
  · have henabled : (advance answers (bodies i) s.calls (s.coroutines i) .awaitResume).isSome :=
      (hsound i).awaitResume hphase
    simpa [step] using henabled
  · exact (hsound i).worker_ne_lost hphase
  · let rank (s : World) : ℕ := (s.coroutines i).remaining
    have hlt {s t : World} {a : Action} (ha : a ≠ .move i .body)
        (hcounted : a.moves i = true) (hstep : step answers bodies s a = some t) :
        rank t < rank s := by
      cases a with
      | other => contradiction
      | move j m =>
        obtain rfl : i = j := of_decide_eq_true hcounted
        obtain ⟨calls, c, hfires, rfl⟩ := fires_of_step hstep
        have hdrop := hfires.remaining_lt fun hm => ha (hm ▸ rfl)
        simpa only [rank, Function.update_self] using hdrop
    have hle {s t : World} {a : Action} (hcounted : a.moves i = false)
        (hstep : step answers bodies s a = some t) : rank t ≤ rank s := by
      cases a with
      | other => exact Option.some.inj hstep ▸ Nat.le_refl (rank s)
      | move j m =>
        have hne : i ≠ j := of_decide_eq_false hcounted
        obtain ⟨calls, c, -, rfl⟩ := fires_of_step hstep
        exact Nat.le_of_eq (by simp only [rank, Function.update_of_ne hne])
    have hcount : bs.countP (Action.moves i) + rank t ≤ rank s :=
      sound_invariant.countP_le (fun _ => hlt) (fun _ _ => hle) hsound
        (fun a ha heq => hbody (heq ▸ ha)) ht
    have hmax : rank s ≤ 8 := (s.coroutines i).remaining_le
    omega

/-- A coroutine that awaits one request. -/
def awaitsOnce : Body := fun results =>
  if results = [] then some ⟨some 7, "orders", ⟨[1, 2], by decide⟩, 2000⟩ else none

/-- It is suspended when the reply comes. -/
def awaitedOrders : List Action :=
  [.move 0 .body, .move 0 .awaitReady, .move 0 .call, .move 0 .awaitSuspend, .move 0 .ret]

theorem awaits_complete_orders : ∃ s,
    (machine accepting fun _ => awaitsOnce).run (machine accepting fun _ => awaitsOnce).init
      awaitedOrders = some s ∧
    (∀ p a, (s.coroutines 0).phase = .awaiting p a →
      ∃ m, m ≠ .body ∧ (step accepting (fun _ => awaitsOnce) s (.move 0 m)).isSome) ∧
    (∀ a, (s.coroutines 0).phase = .awaiting .resumed a →
      (step accepting (fun _ => awaitsOnce) s (.move 0 .awaitResume)).isSome) ∧
    (∀ a, (s.coroutines 0).phase = .awaiting .suspended a →
      ∃ x, a.shared.workers 0 = some x ∧ x.pc ≠ .lost) ∧
    ∀ bs t, (machine accepting fun _ => awaitsOnce).run s bs = some t → .move 0 .body ∉ bs →
      bs.countP (Action.moves 0) ≤ 8 := by
  obtain ⟨s, hs⟩ : ∃ s, (machine accepting fun _ => awaitsOnce).run
      (machine accepting fun _ => awaitsOnce).init awaitedOrders = some s := ⟨_, rfl⟩
  exact ⟨s, hs, awaits_complete hs 0⟩

end Completion

end NatsCpp.Coroutine
