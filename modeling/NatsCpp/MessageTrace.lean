import NatsCpp.Errors
import NatsCpp.TraceContext

/-!
# Trace contexts in the headers of a message

`message_trace_carrier` reads and sets the headers of a `message`. Its keys and
values become C strings, it throws when nats.c refuses a header, and a message
without a native one takes and gives nothing. Injecting into it and extracting
from it are compared with the law of an abstract carrier.
-/
namespace NatsCpp.TraceContext

/-- The native calls that change headers. -/
inductive Call where
  | natsMsgHeaderSet (msg : ℕ) (key value : String)
  deriving DecidableEq

/-- What nats.c answers after the calls made so far. -/
structure Answers where
  texts : ErrorTexts Call
  status : List Call → Status
  natsMsgHeaderGet : List Call → ℕ → String → Status × Option String

section Message

variable (answers : Answers) (msg : Option ℕ)

/-- `message::set_header`. -/
def setHeader (key value : String) : Program Call Error Unit :=
  match msg with
  | none => pure ()
  | some m => do
    let calls ← Program.call (.natsMsgHeaderSet m (cText key) (cText value))
    throwOnError answers.texts (answers.status calls) "natsMsgHeader_Set"

/-- The text that nats.c has under a key, empty if there is none. -/
def Answers.text (calls : List Call) (m : ℕ) (key : String) : String :=
  match answers.natsMsgHeaderGet calls m key with
  | (.ok, some value) => value
  | _ => ""

/-- `message::header`. -/
def header (calls : List Call) (key : String) : String :=
  match msg with
  | none => ""
  | some m => answers.text calls m (cText key)

/-- `message_trace_carrier`; what a `set` changes stays changed if it throws. -/
def messageTraceCarrier : TraceCarrier (List Call) where
  set calls key value := ((setHeader answers msg key value).outcome calls).2
  get calls key := header answers msg calls key

/-- `inject_trace_context` with a `message_trace_carrier`. -/
def injectMessage : List (String × String) → Program Call Error Unit
  | [] => pure ()
  | (key, value) :: pairs => do
    setHeader answers msg key value
    injectMessage pairs

end Message

/-- A header that is set has its new value, and all others are as before. -/
structure Answers.Lawful (answers : Answers) : Prop where
  accepted : ∀ {calls m key value}, answers.status (calls ++ [.natsMsgHeaderSet m key value]) = .ok →
    ∀ m' key', answers.text (calls ++ [.natsMsgHeaderSet m key value]) m' key' =
      if m = m' ∧ key = key' then value else answers.text calls m' key'
  refused : ∀ {calls m key value}, answers.status (calls ++ [.natsMsgHeaderSet m key value]) ≠ .ok →
    ∀ m' key', answers.text (calls ++ [.natsMsgHeaderSet m key value]) m' key' =
      answers.text calls m' key'

/-- The pairs as nats.c gets them. -/
def cPairs (pairs : List (String × String)) : List (String × String) :=
  pairs.map fun p => (cText p.1, cText p.2)

/-- What the headers of a message have under a key after pairs have been accepted. -/
def carried (answers : Answers) (msg : Option ℕ) (made : List Call) (done : List (String × String))
    (key : String) : String :=
  match msg with
  | none => ""
  | some m => (lastValue (cPairs done) (cText key)).getD (answers.text made m (cText key))

/-- The native calls for some pairs. -/
def setCalls (msg : Option ℕ) (pairs : List (String × String)) : List Call :=
  match msg with
  | none => []
  | some m => (cPairs pairs).map fun p => .natsMsgHeaderSet m p.1 p.2

/-- How an injection ends: all pairs have been accepted, or it throws at the first pair that is
refused, after those of `done`. -/
def Ends (answers : Answers) (msg : Option ℕ) (made : List Call)
    (pairs done : List (String × String)) (r : Except Error Unit × List Call) : Prop :=
  (done = pairs ∧ r = (.ok (), made ++ setCalls msg pairs)) ∨
    ∃ p rest, pairs = done ++ p :: rest ∧
      let calls := made ++ setCalls msg (done ++ [p])
      answers.status calls ≠ .ok ∧
        r = (.error (nativeError answers.texts (answers.status calls) "natsMsgHeader_Set" calls),
          calls)

section Inject

variable {answers : Answers} {m : ℕ} {made : List Call} {p : String × String}

theorem outcome_setHeader_ok (h : answers.status (made ++ setCalls (some m) [p]) = .ok) :
    (setHeader answers (some m) p.1 p.2).outcome made =
      (.ok (), made ++ setCalls (some m) [p]) := by
  have hcall := Effect.outcome_bind_of_ok (Program.call _) (fun calls =>
    throwOnError answers.texts (answers.status calls) "natsMsgHeader_Set") made
      (Program.outcome_call (.natsMsgHeaderSet m (cText p.1) (cText p.2)) made)
  change answers.status (made ++ [.natsMsgHeaderSet m (cText p.1) (cText p.2)]) = .ok at h
  rw [h] at hcall
  exact hcall

theorem outcome_setHeader_of_ne (h : answers.status (made ++ setCalls (some m) [p]) ≠ .ok) :
    (setHeader answers (some m) p.1 p.2).outcome made =
      (.error (nativeError answers.texts (answers.status (made ++ setCalls (some m) [p]))
        "natsMsgHeader_Set" (made ++ setCalls (some m) [p])), made ++ setCalls (some m) [p]) := by
  have hcall := Effect.outcome_bind_of_ok (Program.call _) (fun calls =>
    throwOnError answers.texts (answers.status calls) "natsMsgHeader_Set") made
      (Program.outcome_call (.natsMsgHeaderSet m (cText p.1) (cText p.2)) made)
  change answers.status (made ++ [.natsMsgHeaderSet m (cText p.1) (cText p.2)]) ≠ .ok at h
  rw [outcome_throwOnError_of_ne _ _ _ _ h] at hcall
  exact hcall

theorem setCalls_cons (msg : Option ℕ) (p : String × String) (pairs : List (String × String)) :
    setCalls msg (p :: pairs) = setCalls msg [p] ++ setCalls msg pairs := by
  cases msg <;> rfl

/-- An accepted pair before an injection. -/
theorem Ends.cons {msg : Option ℕ} {pairs done : List (String × String)}
    {r : Except Error Unit × List Call} (h : Ends answers msg (made ++ setCalls msg [p]) pairs done r) :
    Ends answers msg made (p :: pairs) (p :: done) r := by
  simp only [Ends, List.append_assoc, ← setCalls_cons] at h
  obtain ⟨rfl, hr⟩ | ⟨q, rest, hpairs, hstatus, hr⟩ := h
  · exact .inl ⟨rfl, hr⟩
  · exact .inr ⟨q, rest, by rw [hpairs]; rfl, hstatus, hr⟩

/-- An accepted header is the last value under its key. -/
theorem carried_cons (hlawful : answers.Lawful)
    (h : answers.status (made ++ setCalls (some m) [p]) = .ok) (done : List (String × String))
    (key : String) : carried answers (some m) (made ++ setCalls (some m) [p]) done key =
      carried answers (some m) made (p :: done) key := by
  have htext := hlawful.accepted h m (cText key)
  simp only [carried, cPairs, List.map_cons, lastValue_cons]
  cases lastValue (done.map fun p => (cText p.1, cText p.2)) (cText key) with
  | some value => rfl
  | none =>
    change answers.text (made ++ setCalls (some m) [p]) m (cText key) = _ at htext
    simp only [Option.getD_none, Option.none_or, htext]
    by_cases hkey : cText p.1 = cText key <;> simp [hkey]

theorem injectMessage_ends (hlawful : answers.Lawful) (msg : Option ℕ) (made : List Call)
    (pairs : List (String × String)) :
    ∃ done, Ends answers msg made pairs done ((injectMessage answers msg pairs).outcome made) ∧
      ∀ key, header answers msg ((injectMessage answers msg pairs).outcome made).2 key =
        carried answers msg made done key := by
  induction pairs generalizing made with
  | nil =>
    refine ⟨[], .inl ⟨rfl, ?_⟩, fun key => ?_⟩
    · cases msg <;> simp [injectMessage, setCalls, cPairs]
    · cases msg <;> rfl
  | cons p pairs ih =>
    cases msg with
    | none =>
      have hnull : (setHeader answers none p.1 p.2).outcome made = (.ok (), made) := rfl
      rw [injectMessage, Effect.outcome_bind_of_ok _ _ _ hnull]
      obtain ⟨done, hends, hheader⟩ := ih made
      refine ⟨p :: done, Ends.cons ?_, hheader⟩
      rw [setCalls, List.append_nil]
      exact hends
    | some m =>
      by_cases hstatus : answers.status (made ++ setCalls (some m) [p]) = .ok
      · obtain ⟨done, hends, hheader⟩ := ih (made ++ setCalls (some m) [p])
        rw [injectMessage, Effect.outcome_bind_of_ok _ _ _ (outcome_setHeader_ok hstatus)]
        exact ⟨p :: done, hends.cons, fun key =>
          (hheader key).trans (carried_cons hlawful hstatus done key)⟩
      · rw [injectMessage, Effect.outcome_bind_of_error _ _ _ (outcome_setHeader_of_ne hstatus)]
        refine ⟨[], .inr ⟨p, pairs, rfl, hstatus, rfl⟩, fun key => ?_⟩
        exact hlawful.refused hstatus m (cText key)

/-- An injection that does not throw is `inject_trace_context` over the carrier. -/
theorem calls_of_injectMessage {msg : Option ℕ} {pairs : List (String × String)}
    (h : ((injectMessage answers msg pairs).outcome made).1 = .ok ()) :
    ((injectMessage answers msg pairs).outcome made).2 =
      injectTraceContext (messageTraceCarrier answers msg) made pairs := by
  induction pairs generalizing made with
  | nil => rfl
  | cons p pairs ih =>
    have hset : (messageTraceCarrier answers msg).set made p.1 p.2 =
        ((setHeader answers msg p.1 p.2).outcome made).2 := rfl
    change _ = injectTraceContext _ ((messageTraceCarrier answers msg).set made p.1 p.2) pairs
    cases hout : (setHeader answers msg p.1 p.2).outcome made with
    | mk r calls =>
      cases r with
      | error e =>
        rw [injectMessage, Effect.outcome_bind_of_error _ _ _ hout] at h
        contradiction
      | ok =>
        rw [injectMessage, Effect.outcome_bind_of_ok _ _ _ hout] at h ⊢
        rw [hset, hout]
        exact ih h

/-- Injecting into a message stops at the first pair that nats.c refuses. In any case the keys
extracted have the last of the values accepted, up to its first NUL, or what the message had. -/
theorem message_roundTrip (hlawful : answers.Lawful) (msg : Option ℕ) (made : List Call)
    (pairs : List (String × String)) :
    ∃ done, Ends answers msg made pairs done ((injectMessage answers msg pairs).outcome made) ∧
      ∀ keys out k, extractTraceContext (messageTraceCarrier answers msg)
          ((injectMessage answers msg pairs).outcome made).2 keys out k =
        (out k).or (if k ∈ keys ∧ carried answers msg made done k ≠ "" then
          some (carried answers msg made done k) else none) := by
  obtain ⟨done, hends, hheader⟩ := injectMessage_ends hlawful msg made pairs
  refine ⟨done, hends, fun keys out k => ?_⟩
  rw [extractTraceContext_apply]
  exact hheader k ▸ rfl

end Inject

/-- The value that the calls have left under a key; an empty key is refused. -/
def stored (m : ℕ) (key : String) : List Call → Option String :=
  List.foldl (fun value c =>
    match c with
    | .natsMsgHeaderSet m' key' value' =>
      if key' ≠ "" ∧ m' = m ∧ key' = key then some value' else value) none

/-- An nats.c with the headers of all messages. -/
def natsHeaders : Answers where
  texts := ⟨fun _ => none, fun _ => none⟩
  status calls :=
    match calls.getLast? with
    | some (.natsMsgHeaderSet _ key _) => if key = "" then .invalidArg else .ok
    | none => .ok
  natsMsgHeaderGet calls m key :=
    match stored m key calls with
    | some value => (.ok, some value)
    | none => (.other 17, none)

theorem text_natsHeaders (calls : List Call) (m : ℕ) (key : String) :
    natsHeaders.text calls m key = (stored m key calls).getD "" := by
  simp only [Answers.text, natsHeaders]
  cases stored m key calls <;> rfl

theorem natsHeaders_lawful : natsHeaders.Lawful where
  accepted := by
    intro calls m key value hok m' key'
    have hkey : key ≠ "" := by
      intro hempty
      simp [natsHeaders, hempty] at hok
    simp only [text_natsHeaders, stored, List.foldl_append, List.foldl_cons, List.foldl_nil]
    by_cases hsame : m = m' ∧ key = key'
    · obtain ⟨rfl, rfl⟩ := hsame
      simp [hkey]
    · simp [hsame]
  refused := by
    intro calls m key value hne m' key'
    have hkey : key = "" := by
      by_contra hkey
      simp [natsHeaders, hkey] at hne
    simp [text_natsHeaders, stored, hkey]

/-- The value ends at its NUL, and the empty key is refused. -/
theorem message_roundTrip_traceparent :
    let pairs := [("traceparent", "00"), ("traceparent", "01\x00"), ("", "a"), ("tracestate", "b")]
    let r := (injectMessage natsHeaders (some 3) pairs).outcome []
    ∃ done, Ends natsHeaders (some 3) [] pairs done r ∧
      ∀ keys out k, extractTraceContext (messageTraceCarrier natsHeaders (some 3)) r.2 keys out k =
        (out k).or (if k ∈ keys ∧ carried natsHeaders (some 3) [] done k ≠ "" then
          some (carried natsHeaders (some 3) [] done k) else none) := by
  intro pairs r
  exact message_roundTrip natsHeaders_lawful (some 3) [] pairs

end NatsCpp.TraceContext
