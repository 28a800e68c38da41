import NatsCpp.ConnectionHolding
import NatsCpp.PayloadLength

/-!
# `request_async` beside `request_sync`

The task of `request_async` has copied `conn_` and its arguments. Its machine is
that of the connection objects, together with the tasks, the native calls that
they have made, and a log of the calls of `natsConnection_Destroy`.
-/
namespace NatsCpp.Connection
open SharedHeap

/-! ## The deletion of a native connection -/

/-- A native connection that nobody holds any more is being deleted or is gone,
and a task that runs has nothing else to delete. -/
structure Pending (s : State) : Prop where
  pending : ∀ {n x}, s.natives n = some x → s.conns.value n = none → x.phase ≠ .destroyed →
    ∃ p d, s.deleting p = some d ∧ d.native = n
  requests : ∀ {r n}, s.requests r = some n → s.deleting (.request r) = none

namespace Pending

variable {s t : State}

theorem frame (h : Pending s)
    (hconns : ∀ n, t.conns.value n = none → s.conns.value n = none)
    (hnatives : t.natives = s.natives) (hdeleting : t.deleting = s.deleting)
    (hrequests : t.requests = s.requests) : Pending t where
  pending hn hvalue hphase := by
    rw [hdeleting]
    exact h.pending (hnatives ▸ hn) (hconns _ hvalue) hphase
  requests hr := by
    rw [hdeleting]
    exact h.requests (hrequests ▸ hr)

/-- The last holder that lets go has the connection to delete. -/
theorem dropConn (h : Pending s) {p : Holder} {c : Option ℕ} (hp : s.deleting p = none)
    (hr : ∀ r n, p = .request r → s.requests r ≠ some n) : Pending (s.dropConn p c) := by
  cases c with
  | none => exact h
  | some m =>
    have hdeleting {q : Holder} {d : Deleting} (hq : s.deleting q = some d) :
        (s.dropConn p (some m)).deleting q = some d := by
      have hne : q ≠ p := by
        rintro rfl
        simp [hp] at hq
      simp only [State.dropConn]
      split_ifs
      · rw [Function.update_of_ne hne, hq]
      · exact hq
    constructor
    · intro n x hn hvalue hphase
      rw [State.dropConn_natives] at hn
      by_cases hsame : (s.dropConn p (some m)).conns.value n = s.conns.value n
      · obtain ⟨q, d, hq, hd⟩ := h.pending hn (hsame ▸ hvalue) hphase
        exact ⟨q, d, hdeleting hq, hd⟩
      · have heq : n = m := by
          by_contra hne
          exact hsame (value_drop_of_ne _ _ _ _ hne)
        subst n
        change (s.conns.drop m p).value m = none at hvalue
        exact ⟨p, .call m, by simp [State.dropConn, hvalue], rfl⟩
    · intro r n hreq
      rw [State.dropConn_requests] at hreq
      have hne : Holder.request r ≠ p := by
        rintro rfl
        exact hr r n rfl hreq
      simp only [State.dropConn]
      split_ifs
      · rw [Function.update_of_ne hne, h.requests hreq]
      · exact h.requests hreq

/-- The deletion goes on; at its end the native connection is destroyed. -/
theorem proceed (h : Pending s) {p : Holder} {d : Deleting}
    {d' : Option Deleting} {x : Native} (hp : s.deleting p = some d)
    (hconns : t.conns = s.conns)
    (hdeleting : t.deleting = Function.update s.deleting p d')
    (hnatives : t.natives = Function.update s.natives d.native (some x))
    (hrequests : t.requests = s.requests)
    (hd' : x.phase = .destroyed ∨ ∃ e, d' = some e ∧ e.native = d.native) : Pending t where
  pending {n y} hn hvalue hphase := by
    rw [hconns] at hvalue
    rw [hnatives] at hn
    rw [hdeleting]
    rcases of_update_eq_some hn with ⟨rfl, rfl⟩ | ⟨hne, hn⟩
    · obtain hgone | ⟨e, rfl, he⟩ := hd'
      · exact (hphase hgone).elim
      · exact ⟨p, e, Function.update_self _ _ _, he⟩
    · obtain ⟨q, e, hq, he⟩ := h.pending hn hvalue hphase
      have hqp : q ≠ p := by
        rintro rfl
        rw [hp] at hq
        exact hne (Option.some.inj hq ▸ he.symm)
      exact ⟨q, e, by rw [Function.update_of_ne hqp, hq], he⟩
  requests {r n} hr := by
    rw [hrequests] at hr
    have hne : Holder.request r ≠ p := by
      rintro rfl
      simp [h.requests hr] at hp
    rw [hdeleting, Function.update_of_ne hne, h.requests hr]

/-- A native connection is made, and held. -/
theorem make (h : Pending s) {x : Native} {w : Holder}
    (hconns : t.conns = s.conns.make s.fresh () w)
    (hnatives : t.natives = Function.update s.natives s.fresh (some x))
    (hdeleting : t.deleting = s.deleting) (hrequests : t.requests = s.requests) : Pending t where
  pending {n y} hn hvalue hphase := by
    rw [hnatives] at hn
    rw [hconns, value_make] at hvalue
    rw [hdeleting]
    rcases of_update_eq_some hn with ⟨rfl, -⟩ | ⟨hne, hn⟩
    · simp at hvalue
    · rw [if_neg hne] at hvalue
      exact h.pending hn hvalue hphase
  requests hr := by
    rw [hdeleting]
    exact h.requests (hrequests ▸ hr)

theorem step {a : Action} (h : Pending s) (hh : Holding s) (ht : Fires s a t) : Pending t := by
  have hkept {t : State} (hconns : t.conns = s.conns) (hnatives : t.natives = s.natives)
      (hdeleting : t.deleting = s.deleting) (hrequests : t.requests = s.requests) : Pending t :=
    h.frame (fun n hn => by rwa [hconns] at hn) hnatives hdeleting hrequests
  cases ht with
  | construct | connect | destroy | moveAssign | subscribe | destroySub | releaseSub
  | connectThrow | setHandlers | assignState | assignHandlers | dropHandlers | dropState | ending
  | post | dispatch => exact hkept rfl rfl rfl rfl
  | moveAssignSelf => exact h
  | @moveConstruct o src y ho hsrc hy =>
    have hne : o ≠ src := by
      rintro rfl
      simp [ho] at hsrc
    refine h.frame (fun n hn => ?_) rfl rfl rfl
    rwa [moveMembers, State.setObject_conns, State.setObject_conns,
      value_move _ _ _ (object_injective.ne hne)] at hn
  | @requestAsync o r n x ho hconn hr hd =>
    constructor
    · intro m y hm hvalue hphase
      exact h.pending hm (by rwa [value_share] at hvalue) hphase
    · intro r' m hr'
      by_cases heq : r' = r
      · rw [heq]
        exact hd
      · exact h.requests ((Function.update_of_ne heq _ _).symm.trans hr')
  | @endRequest r n hr =>
    have hbase : Pending { s with requests := Function.update s.requests r none } := by
      refine ⟨h.pending, fun {r' m} hr' => ?_⟩
      by_cases heq : r' = r
      · simp [heq] at hr'
      · exact h.requests ((Function.update_of_ne heq _ _).symm.trans hr')
    refine hbase.dropConn (h.requests hr) ?_
    rintro r' m heq
    obtain rfl := Holder.request.inj heq
    simp
  | @callDestroy p _ n x hd hn =>
    exact h.proceed hd rfl rfl rfl rfl (.inr ⟨_, rfl, rfl⟩)
  | @returnDestroy p _ n x hd hn =>
    exact h.proceed hd rfl rfl rfl rfl (.inl rfl)
  | @freeDeleter p _ n x hd hn =>
    obtain ⟨y, hy, hphase⟩ := hh.deletions.phase hd
    obtain rfl := Option.some.inj (hn.symm.trans hy)
    refine h.proceed (t := freeDeleter s p n x) hd rfl rfl ?_ rfl (.inl hphase)
    rw [← hy, Function.update_eq_self]
    rfl
  | @resetConn o k engaged x hd ho hpc =>
    apply Pending.dropConn
    · exact h.make rfl rfl rfl rfl
    · exact hd
    · simp
  | @assignConn o src _ x y hd ho hpc hsrc =>
    have hne := object_injective.ne ((hh.consistent _ _ ho).ne (.inl hpc))
    apply Pending.dropConn
    · refine h.frame (fun n hn => ?_) rfl rfl rfl
      rwa [State.setObject_conns, State.setObject_conns, value_move _ _ _ hne] at hn
    · exact hd
    · simp
  | dropConn hd ho hpc =>
    apply Pending.dropConn
    · exact hkept rfl rfl rfl rfl
    · exact hd
    · simp

end Pending

/-- Only a task that lets go of its copy can have a native connection to delete. -/
theorem deleting_request {s t : State} {a : Action} {r : ℕ} (ht : Fires s a t)
    (ha : a ≠ .endRequest r) (hr : s.deleting (.request r) = none) :
    t.deleting (.request r) = none := by
  have hdrop {s : State} {p : Holder} {c : Option ℕ} (hp : p ≠ .request r)
      (hr : s.deleting (.request r) = none) : (s.dropConn p c).deleting (.request r) = none := by
    cases c with
    | none => exact hr
    | some n =>
      simp only [State.dropConn]
      split_ifs
      · rw [Function.update_of_ne hp.symm, hr]
      · exact hr
  have hset {p : Holder} {d : Deleting} (d' : Option Deleting) (hd : s.deleting p = some d) :
      Function.update s.deleting p d' (.request r) = none := by
    have hne : Holder.request r ≠ p := by
      rintro rfl
      simp [hr] at hd
    rw [Function.update_of_ne hne, hr]
  cases ht with
  | construct | moveConstruct | connect | destroy | moveAssign | moveAssignSelf | requestAsync
  | subscribe | destroySub | releaseSub | connectThrow | setHandlers | assignState | assignHandlers
  | dropHandlers | dropState | ending | post | dispatch => exact hr
  | @endRequest r' n hr' =>
    refine hdrop (fun heq => ha ?_) hr
    rw [Holder.request.inj heq]
  | callDestroy hd | returnDestroy hd | freeDeleter hd => exact hset _ hd
  | resetConn | assignConn | dropConn => exact hdrop (by simp) hr

/-- Only the tasks of `request_async` take and give back copies. -/
theorem requests_of_fires {s t : State} {a : Action} (ht : Fires s a t)
    (hasync : ∀ o r, a ≠ .requestAsync o r) (hend : ∀ r, a ≠ .endRequest r) :
    t.requests = s.requests := by
  cases ht with
  | construct | moveConstruct | connect | destroy | moveAssign | moveAssignSelf
  | subscribe | destroySub | releaseSub | connectThrow | setHandlers | assignState | assignHandlers
  | dropHandlers | dropState | ending | post | dispatch | callDestroy | returnDestroy
  | freeDeleter => rfl
  | requestAsync => exact (hasync _ _ rfl).elim
  | endRequest => exact (hend _ rfl).elim
  | resetConn | assignConn | dropConn => exact State.dropConn_requests _ _ _

/-- The calls of `natsConnection_Destroy` that a step makes. -/
def destroyCalls (s : State) : Action → List ℕ
  | .advance p _ =>
    match s.deleting p with
    | some (.call n) => [n]
    | _ => []
  | _ => []

/-- How often a native connection has been passed to `natsConnection_Destroy`. -/
def destroyCount (s : State) (n : ℕ) : ℕ :=
  match s.natives n with
  | some x => if x.phase = .active then 0 else 1
  | none => 0

section Count

variable {s t : State} {a : Action}

theorem destroyCount_of_natives (hnatives : t.natives = s.natives) (n : ℕ) :
    destroyCount t n = destroyCount s n := by
  rw [destroyCount, destroyCount, hnatives]

theorem destroyCount_update {m : ℕ} {x : Native}
    (hnatives : t.natives = Function.update s.natives m (some x)) (n : ℕ) :
    destroyCount t n = if n = m then (if x.phase = .active then 0 else 1) else destroyCount s n := by
  rw [destroyCount, hnatives, Function.update_apply]
  split_ifs with heq <;> simp_all [destroyCount]

/-- A step counts the calls that it makes. -/
theorem destroyCount_step (h : Deletions s) (ht : Fires s a t) (n : ℕ) :
    destroyCount t n = destroyCount s n + (destroyCalls s a).count n := by
  cases ht with
  | construct | moveConstruct | connect | destroy | moveAssign | moveAssignSelf | requestAsync
  | subscribe | destroySub | releaseSub | post | dispatch => rfl
  | endRequest =>
    rw [destroyCount_of_natives (State.dropConn_natives _ _ _)]
    rfl
  | @callDestroy p _ m x hd hn =>
    obtain ⟨y, hy, hphase⟩ := h.phase hd
    obtain rfl := Option.some.inj (hn.symm.trans hy)
    rw [destroyCount_update rfl]
    by_cases heq : n = m
    · subst n
      simp [destroyCalls, hd, destroyCount, hn, hphase, Deleting.phase]
    · simp [destroyCalls, hd, heq, Ne.symm heq]
  | @returnDestroy p _ m x hd hn =>
    obtain ⟨y, hy, hphase⟩ := h.phase hd
    obtain rfl := Option.some.inj (hn.symm.trans hy)
    rw [destroyCount_update rfl]
    by_cases heq : n = m
    · subst n
      simp [destroyCalls, hd, destroyCount, hn, hphase, Deleting.phase]
    · simp [destroyCalls, hd, heq]
  | @resetConn o k engaged x hd ho hpc =>
    have hnatives : (resetConn s o x k engaged).natives =
        Function.update s.natives s.fresh (some ⟨k, engaged, .active⟩) :=
      State.dropConn_natives _ _ _
    have hnew : s.natives s.fresh = none := by
      by_contra hne
      obtain ⟨y, hy⟩ := Option.ne_none_iff_exists'.mp hne
      exact lt_irrefl _ (h.fresh hy)
    rw [destroyCount_update hnatives]
    simp only [destroyCalls, hd, List.count_nil, Nat.add_zero, if_true]
    split_ifs with heq
    · rw [heq, destroyCount, hnew]
    · rfl
  | freeDeleter hd | connectThrow hd | setHandlers hd | assignState hd | assignHandlers hd | dropHandlers hd
  | dropState hd | ending hd =>
    simp only [destroyCalls, hd, List.count_nil, Nat.add_zero]
    rfl
  | assignConn hd | dropConn hd =>
    simp only [destroyCalls, hd, List.count_nil, Nat.add_zero]
    exact destroyCount_of_natives (State.dropConn_natives _ _ _) n

end Count

end NatsCpp.Connection

namespace NatsCpp.RequestAsync
open Messaging

/-! ## The machine -/

/-- How far a task has come, with what its future yields once it has made its call. -/
inductive Progress where
  | waiting
  | calling (result : Except Error (Option ℕ))
  | returned (result : Except Error (Option ℕ))
  | released (result : Except Error (Option ℕ))

def Progress.result : Progress → Option (Except Error (Option ℕ))
  | .waiting => none
  | .calling result | .returned result | .released result => some result

/-- The captures of a task, the native calls that it has made, and its progress. -/
structure Task where
  conn : Option ℕ
  subject : String
  payload : Payload
  timeout : Int64
  calls : List Messaging.Call
  progress : Progress

/-- The body of the task. -/
def Task.body (answers : Answers) (k : Task) : Program Messaging.Call Error (Option ℕ) :=
  natsConnectionRequest answers k.conn k.subject k.payload k.timeout

/-- The copy of `conn_` that the task still has. -/
def Task.held (k : Task) : Option ℕ :=
  match k.progress with
  | .released _ => none
  | _ => k.conn

/-- The calls of `natsConnection_Request` on all threads, and the native connections
passed to `natsConnection_Destroy`. -/
structure State where
  base : Connection.State
  tasks : ℕ → Option Task
  calls : List Messaging.Call
  destroyed : List ℕ

def initial : State := ⟨Connection.initial, fun _ => none, [], []⟩

def State.setTask (s : State) (r : ℕ) (k : Task) : State :=
  { s with tasks := Function.update s.tasks r (some k) }

/-- An operation on connection objects, or an effect of it. -/
def connection (s : State) (a : Connection.Action) : Option State :=
  match a with
  | .requestAsync .. | .endRequest .. => none
  | a => (Connection.step s.base a).map fun base =>
    { s with base, destroyed := s.destroyed ++ Connection.destroyCalls s.base a }

/-- `request_sync` on an idle object. -/
def requestSync (answers : Answers) (s : State) (o : ℕ) (subject : String) (payload : Payload)
    (timeout : Int64) : Option State :=
  match s.base.objects o with
  | some x =>
    if x.idle then
      let (_, calls) := (Messaging.requestSync answers x.conn subject payload timeout).outcome s.calls
      some { s with calls }
    else none
  | none => none

/-- `request_async` on an idle object; an exception leaves everything as it is. -/
def requestAsync (answers : Answers) (s : State) (o r : ℕ) (subject : String) (payload : Payload)
    (timeout : Int64) : Option State :=
  match s.base.objects o, s.tasks r with
  | some x, none =>
    if x.idle then
      match (Messaging.requestAsync answers x.conn subject payload timeout).outcome s.calls with
      | (.error _, calls) => some { s with calls }
      | (.ok _, calls) =>
        let t := { s with calls }.setTask r ⟨x.conn, subject, payload, timeout, [], .waiting⟩
        match x.conn with
        | none => some t
        | some _ => (Connection.requestAsync s.base o r).map fun base => { t with base }
    else none
  | _, _ => none

/-- The task runs up to its native call. -/
def call (answers : Answers) (s : State) (r : ℕ) : Option State :=
  match s.tasks r with
  | some k =>
    match k.progress with
    | .waiting =>
      let (result, calls) := (k.body answers).outcome s.calls
      let made := k.calls ++ calls.drop s.calls.length
      some ({ s with calls }.setTask r { k with calls := made, progress := .calling result })
    | _ => none
  | none => none

/-- The native call returns, and the future is ready. -/
def ret (s : State) (r : ℕ) : Option State :=
  match s.tasks r with
  | some k =>
    match k.progress with
    | .calling result => some (s.setTask r { k with progress := .returned result })
    | _ => none
  | none => none

/-- The captures of a task that has run are destroyed. -/
def release (s : State) (r : ℕ) : Option State :=
  match s.tasks r with
  | some k =>
    match k.progress with
    | .returned result =>
      let t := s.setTask r { k with progress := .released result }
      match k.conn with
      | none => some t
      | some _ => (Connection.endRequest s.base r).map fun base => { t with base }
    | _ => none
  | none => none

inductive Action where
  | connection (a : Connection.Action)
  | requestSync (o : ℕ) (subject : String) (payload : Payload) (timeout : Int64)
  | requestAsync (o r : ℕ) (subject : String) (payload : Payload) (timeout : Int64)
  | call (r : ℕ)
  | ret (r : ℕ)
  | release (r : ℕ)

def step (answers : Answers) (s : State) : Action → Option State
  | .connection a => connection s a
  | .requestSync o subject payload timeout => requestSync answers s o subject payload timeout
  | .requestAsync o r subject payload timeout =>
    requestAsync answers s o r subject payload timeout
  | .call r => call answers s r
  | .ret r => ret s r
  | .release r => release s r

def machine (answers : Answers) : Machine State Action := ⟨initial, step answers⟩

/-- A program throws `std::invalid_argument`. -/
def Rejects {α : Type} (p : Program Messaging.Call Error α) (calls : List Messaging.Call) : Prop :=
  ∃ what, (p.outcome calls).1 = .error (.invalidArgument what)

section Outcomes

variable (answers : Answers) (conn : Option ℕ) (subject : String) (payload : Payload)
  (timeout : Int64) (calls : List Messaging.Call)

/-- The native call of `request_sync` and of the task. -/
def requestCall : Messaging.Call :=
  ⟨.natsConnectionRequest conn subject timeout, payload.bytes, toInt payload.size⟩

theorem requestSync_of_gt (h : payload.size > intMax) : ∃ what,
    (Messaging.requestSync answers conn subject payload timeout).outcome calls =
      (.error (.invalidArgument what), calls) :=
  ⟨_, Effect.outcome_bind_of_error _ _ _ (outcome_checkSize_of_gt payload _ h calls)⟩

theorem requestSync_of_le (h : ¬ payload.size > intMax) :
    (Messaging.requestSync answers conn subject payload timeout).outcome calls =
      (natsConnectionRequest answers conn subject payload timeout).outcome calls :=
  Effect.outcome_bind_of_ok _ _ _ (outcome_checkSize_of_le payload _ h calls)

theorem requestAsync_of_gt (h : payload.size > intMax) : ∃ what,
    (Messaging.requestAsync answers conn subject payload timeout).outcome calls =
      (.error (.invalidArgument what), calls) :=
  ⟨_, Effect.outcome_bind_of_error _ _ _ (outcome_checkSize_of_gt payload _ h calls)⟩

theorem requestAsync_of_le (h : ¬ payload.size > intMax) :
    (Messaging.requestAsync answers conn subject payload timeout).outcome calls =
      (.ok (natsConnectionRequest answers conn subject payload timeout), calls) :=
  Effect.outcome_bind_of_ok _ _ _ (outcome_checkSize_of_le payload _ h calls)

/-- The native request throws nothing but native errors. -/
theorem natsConnectionRequest_cases :
    ∃ r, (natsConnectionRequest answers conn subject payload timeout).outcome calls =
      (r, calls ++ [requestCall conn subject payload timeout]) ∧
        ∀ what, r ≠ .error (.invalidArgument what) := by
  let c := requestCall conn subject payload timeout
  let reply (calls : List Call) : Program Call Error (Option ℕ) := pure (answers.msg calls)
  by_cases hok : answers.status (calls ++ [c]) = .ok
  · exact ⟨_, outcome_checked_ok answers.texts _ calls answers.status c reply hok, by simp⟩
  · have hthrow := outcome_checked_of_ne answers.texts "natsConnection_Request" calls
      answers.status c reply hok
    exact ⟨_, hthrow, by simp [nativeError]⟩

theorem rejects_requestSync_iff :
    Rejects (Messaging.requestSync answers conn subject payload timeout) calls ↔
      payload.size > intMax := by
  by_cases h : payload.size > intMax
  · obtain ⟨what, hsync⟩ := requestSync_of_gt answers conn subject payload timeout calls h
    exact iff_of_true ⟨what, by rw [hsync]⟩ h
  · obtain ⟨r, hr, hne⟩ := natsConnectionRequest_cases answers conn subject payload timeout calls
    refine iff_of_false ?_ h
    rintro ⟨what, hwhat⟩
    rw [requestSync_of_le answers conn subject payload timeout calls h, hr] at hwhat
    exact hne what hwhat

theorem rejects_requestAsync_iff :
    Rejects (Messaging.requestAsync answers conn subject payload timeout) calls ↔
      payload.size > intMax := by
  by_cases h : payload.size > intMax
  · obtain ⟨what, hasync⟩ := requestAsync_of_gt answers conn subject payload timeout calls h
    exact iff_of_true ⟨what, by rw [hasync]⟩ h
  · refine iff_of_false ?_ h
    rintro ⟨what, hwhat⟩
    rw [requestAsync_of_le answers conn subject payload timeout calls h] at hwhat
    contradiction

/-- `request_sync` makes calls and takes none back. -/
theorem calls_requestSync :
    calls <+: ((Messaging.requestSync answers conn subject payload timeout).outcome calls).2 := by
  by_cases h : payload.size > intMax
  · obtain ⟨what, hsync⟩ := requestSync_of_gt answers conn subject payload timeout calls h
    rw [hsync]
  · obtain ⟨r, hr, -⟩ := natsConnectionRequest_cases answers conn subject payload timeout calls
    rw [requestSync_of_le answers conn subject payload timeout calls h, hr]
    exact List.prefix_append _ _

end Outcomes

/-- What the actions change, with the facts that enable them. -/
inductive Fires (answers : Answers) (s : State) : Action → State → Prop where
  | connection {a : Connection.Action} {base : Connection.State}
      (hasync : ∀ o r, a ≠ .requestAsync o r) (hend : ∀ r, a ≠ .endRequest r)
      (hbase : Connection.step s.base a = some base) :
      Fires answers s (.connection a)
        { s with base, destroyed := s.destroyed ++ Connection.destroyCalls s.base a }
  | requestSync {o : ℕ} {subject : String} {payload : Payload} {timeout : Int64}
      {calls : List Messaging.Call} (hcalls : s.calls <+: calls) :
      Fires answers s (.requestSync o subject payload timeout) { s with calls }
  | reject {o r : ℕ} {subject : String} {payload : Payload} {timeout : Int64}
      (hsize : payload.size > intMax) :
      Fires answers s (.requestAsync o r subject payload timeout) s
  | start {o r : ℕ} {subject : String} {payload : Payload} {timeout : Int64}
      {x : Connection.Object} {base : Connection.State} (ho : s.base.objects o = some x)
      (hr : s.tasks r = none) (hsize : ¬ payload.size > intMax)
      (hbase : base = s.base ∧ x.conn = none ∨ Connection.requestAsync s.base o r = some base) :
      Fires answers s (.requestAsync o r subject payload timeout)
        { s.setTask r ⟨x.conn, subject, payload, timeout, [], .waiting⟩ with base }
  | call {r : ℕ} {k : Task} {result : Except Error (Option ℕ)} (hk : s.tasks r = some k)
      (hwaiting : k.progress = .waiting)
      (hout : (k.body answers).outcome s.calls =
        (result, s.calls ++ [requestCall k.conn k.subject k.payload k.timeout])) :
      Fires answers s (.call r)
        ({ s with calls := s.calls ++ [requestCall k.conn k.subject k.payload k.timeout] }.setTask r
          { k with
            calls := k.calls ++ [requestCall k.conn k.subject k.payload k.timeout]
            progress := .calling result })
  | ret {r : ℕ} {k : Task} {result : Except Error (Option ℕ)} (hk : s.tasks r = some k)
      (hcalling : k.progress = .calling result) :
      Fires answers s (.ret r) (s.setTask r { k with progress := .returned result })
  | release {r : ℕ} {k : Task} {result : Except Error (Option ℕ)} {base : Connection.State}
      (hk : s.tasks r = some k) (hreturned : k.progress = .returned result)
      (hbase : base = s.base ∧ k.conn = none ∨ Connection.endRequest s.base r = some base) :
      Fires answers s (.release r)
        { s.setTask r { k with progress := .released result } with base }

theorem fires_of_step {answers : Answers} {s t : State} {a : Action}
    (ht : step answers s a = some t) : Fires answers s a t := by
  cases a with
  | connection a =>
    simp only [step, connection] at ht
    split at ht
    · contradiction
    · contradiction
    · rename_i hasync hend
      obtain ⟨base, hbase, rfl⟩ := Option.map_eq_some_iff.mp ht
      exact .connection (fun o r h => hasync o r h) (fun r h => hend r h) hbase
  | requestSync o subject payload timeout =>
    simp only [step, requestSync] at ht
    split at ht
    · rename_i x ho
      split at ht
      · obtain rfl := Option.some.inj ht
        exact .requestSync (calls_requestSync answers x.conn subject payload timeout s.calls)
      · contradiction
    · contradiction
  | requestAsync o r subject payload timeout =>
    simp only [step, requestAsync] at ht
    split at ht
    · rename_i x ho hr
      split at ht
      · by_cases hsize : payload.size > intMax
        · obtain ⟨what, hout⟩ :=
            requestAsync_of_gt answers x.conn subject payload timeout s.calls hsize
          rw [hout] at ht
          exact Option.some.inj ht ▸ .reject hsize
        · rw [requestAsync_of_le answers x.conn subject payload timeout s.calls hsize] at ht
          cases hconn : x.conn with
          | none =>
            rw [hconn] at ht
            obtain rfl := Option.some.inj ht
            rw [← hconn]
            exact .start ho hr hsize (.inl ⟨rfl, hconn⟩)
          | some n =>
            rw [hconn] at ht
            obtain ⟨base, hbase, rfl⟩ := Option.map_eq_some_iff.mp ht
            rw [← hconn]
            exact .start ho hr hsize (.inr hbase)
      · contradiction
    · contradiction
  | call r =>
    simp only [step, call] at ht
    split at ht
    · rename_i k hk
      split at ht
      · rename_i hwaiting
        obtain ⟨result, hout, -⟩ :=
          natsConnectionRequest_cases answers k.conn k.subject k.payload k.timeout s.calls
        rw [show (k.body answers).outcome s.calls = _ from hout, List.drop_left] at ht
        exact Option.some.inj ht ▸ .call hk hwaiting hout
      · contradiction
    · contradiction
  | ret r =>
    simp only [step, ret] at ht
    split at ht
    · rename_i k hk
      split at ht
      · rename_i result hcalling
        exact Option.some.inj ht ▸ .ret hk hcalling
      · contradiction
    · contradiction
  | release r =>
    simp only [step, release] at ht
    split at ht
    · rename_i k hk
      split at ht
      · rename_i result hreturned
        cases hconn : k.conn with
        | none =>
          rw [hconn] at ht
          obtain rfl := Option.some.inj ht
          rw [← hconn]
          exact .release hk hreturned (.inl ⟨rfl, hconn⟩)
        | some n =>
          rw [hconn] at ht
          obtain ⟨base, hbase, rfl⟩ := Option.map_eq_some_iff.mp ht
          rw [← hconn]
          exact .release hk hreturned (.inr hbase)
      · contradiction
    · contradiction

/-- Nothing but a task's call and `request_sync` makes native requests. -/
theorem calls_of_fires {answers : Answers} {s t : State} {a : Action} (ht : Fires answers s a t)
    (hcall : ∀ r, a ≠ .call r)
    (hsync : ∀ o subject payload timeout, a ≠ .requestSync o subject payload timeout) :
    t.calls = s.calls := by
  cases ht with
  | connection | reject | start | ret | release => rfl
  | requestSync => exact (hsync _ _ _ _ rfl).elim
  | call => exact (hcall _ rfl).elim

/-- A task does what `request_sync` would do with the same arguments on the native
connection that it has captured: `log` is the list of all calls made so far. -/
structure Task.Follows (answers : Answers) (log : List Messaging.Call) (k : Task) : Prop where
  size : ¬ k.payload.size > intMax
  waiting : k.progress.result = none → k.calls = []
  called : ∀ {result}, k.progress.result = some result →
    k.calls = [requestCall k.conn k.subject k.payload k.timeout] ∧
      ∃ before, before ++ k.calls <+: log ∧
        (Messaging.requestSync answers k.conn k.subject k.payload k.timeout).outcome before =
          (result, before ++ k.calls)

namespace Task.Follows

variable {answers : Answers} {log log' : List Messaging.Call} {k : Task}

theorem mono (h : k.Follows answers log) (hlog : log <+: log') : k.Follows answers log' where
  size := h.size
  waiting := h.waiting
  called hresult := by
    obtain ⟨hcalls, before, hprefix, hsync⟩ := h.called hresult
    exact ⟨hcalls, before, hprefix.trans hlog, hsync⟩

/-- The task goes on without another call. -/
theorem proceed (h : k.Follows answers log) {p : Progress}
    (hp : p.result = k.progress.result) : ({ k with progress := p } : Task).Follows answers log where
  size := h.size
  waiting hresult := h.waiting (hp.symm.trans hresult)
  called hresult := h.called (hp.symm.trans hresult)

theorem call (h : k.Follows answers log) (hwaiting : k.progress = .waiting)
    {result : Except Error (Option ℕ)}
    (hout : (k.body answers).outcome log =
      (result, log ++ [requestCall k.conn k.subject k.payload k.timeout])) :
    ({ k with
      calls := k.calls ++ [requestCall k.conn k.subject k.payload k.timeout]
      progress := .calling result } : Task).Follows answers
        (log ++ [requestCall k.conn k.subject k.payload k.timeout]) where
  size := h.size
  waiting hresult := by simp [Progress.result] at hresult
  called hresult := by
    have hnone : k.calls = [] := h.waiting (by rw [hwaiting]; rfl)
    obtain rfl := Option.some.inj hresult
    rw [hnone, List.nil_append]
    refine ⟨rfl, log, List.prefix_rfl, ?_⟩
    rw [requestSync_of_le answers k.conn k.subject k.payload k.timeout log h.size]
    exact hout

end Task.Follows

/-- What every run keeps about the tasks and the native connections. -/
structure Inv (answers : Answers) (s : State) : Prop where
  holding : Connection.Holding s.base
  pending : Connection.Pending s.base
  requests : ∀ r, s.base.requests r = (s.tasks r).bind Task.held
  unused : ∀ {r}, s.tasks r = none → s.base.deleting (.request r) = none
  count : ∀ n, s.destroyed.count n = Connection.destroyCount s.base n
  tasks : ∀ {r k}, s.tasks r = some k → k.Follows answers s.calls

namespace Inv

variable {answers : Answers} {s : State}

/-- The log grows, and a task is set; what it holds stays. -/
theorem setTask (h : Inv answers s) {r : ℕ} {k : Task} {calls : List Messaging.Call}
    (hcalls : s.calls <+: calls) (hheld : k.held = (s.tasks r).bind Task.held)
    (hk : k.Follows answers calls) : Inv answers ({ s with calls }.setTask r k) where
  holding := h.holding
  pending := h.pending
  requests r' := by
    simp only [State.setTask, Function.update_apply]
    split_ifs with heq
    · rw [h.requests, heq]
      exact hheld.symm
    · exact h.requests r'
  unused {r'} hr' := by
    simp only [State.setTask, Function.update_apply] at hr'
    split_ifs at hr'
    exact h.unused hr'
  count := h.count
  tasks {r' k'} hr' := by
    rcases Connection.of_update_eq_some hr' with ⟨-, rfl⟩ | ⟨-, hr'⟩
    · exact hk
    · exact (h.tasks hr').mono hcalls

/-- A step of the connection objects by which a task takes or gives back its copy. -/
theorem setBase (h : Inv answers s) {r : ℕ} {k : Task} {a : Connection.Action}
    {base : Connection.State} (hfires : Connection.Fires s.base a base)
    (hdestroy : Connection.destroyCalls s.base a = [])
    (hrequests : base.requests = Function.update s.base.requests r k.held)
    (hdeleting : ∀ r', r' ≠ r → s.base.deleting (.request r') = none →
      base.deleting (.request r') = none)
    (hk : k.Follows answers s.calls) : Inv answers { s.setTask r k with base } where
  holding := h.holding.step hfires
  pending := h.pending.step h.holding hfires
  requests r' := by
    simp only [State.setTask, hrequests, Function.update_apply]
    split_ifs with heq
    · rfl
    · exact h.requests r'
  unused {r'} hr' := by
    simp only [State.setTask, Function.update_apply] at hr'
    split_ifs at hr' with heq
    exact hdeleting r' heq (h.unused hr')
  count n := by
    rw [Connection.destroyCount_step h.holding.deletions hfires, hdestroy]
    exact h.count n
  tasks {r' k'} hr' := by
    rcases Connection.of_update_eq_some hr' with ⟨-, rfl⟩ | ⟨-, hr'⟩
    · exact hk
    · exact h.tasks hr'

theorem connection (h : Inv answers s) {a : Connection.Action} {base : Connection.State}
    (hasync : ∀ o r, a ≠ .requestAsync o r) (hend : ∀ r, a ≠ .endRequest r)
    (hfires : Connection.Fires s.base a base) :
    Inv answers { s with base, destroyed := s.destroyed ++ Connection.destroyCalls s.base a } where
  holding := h.holding.step hfires
  pending := h.pending.step h.holding hfires
  requests r := (congrFun (Connection.requests_of_fires hfires hasync hend) r).trans (h.requests r)
  unused hr := Connection.deleting_request hfires (hend _) (h.unused hr)
  count n := by
    rw [List.count_append, h.count, Connection.destroyCount_step h.holding.deletions hfires]
  tasks := h.tasks

theorem step {t : State} {a : Action} (h : Inv answers s) (ht : Fires answers s a t) :
    Inv answers t := by
  cases ht with
  | connection hasync hend hbase =>
    exact h.connection hasync hend (Connection.fires_of_step hbase)
  | requestSync hcalls =>
    exact { h with tasks := fun hr => (h.tasks hr).mono hcalls }
  | reject => exact h
  | @start o r subject payload timeout x base ho hr hsize hbase =>
    have hk : (⟨x.conn, subject, payload, timeout, [], .waiting⟩ : Task).Follows answers s.calls :=
      ⟨hsize, fun _ => rfl, by simp [Progress.result]⟩
    rcases hbase with ⟨rfl, hconn⟩ | hbase
    · refine h.setTask List.prefix_rfl ?_ hk
      rw [hr]
      exact hconn
    · have hfires := Connection.fires_of_step (a := .requestAsync o r) hbase
      refine h.setBase hfires rfl ?_ (fun r' hne hr' => ?_) hk
      · cases hfires with
        | requestAsync ho' hconn =>
          obtain rfl := Option.some.inj (ho.symm.trans ho')
          exact congrArg (Function.update s.base.requests r) hconn.symm
      · exact Connection.deleting_request hfires (by simp) hr'
  | @call r k result hk hwaiting hout =>
    refine h.setTask (List.prefix_append _ _) ?_ ((h.tasks hk).call hwaiting hout)
    rw [hk]
    simp [Task.held, hwaiting]
  | @ret r k result hk hcalling =>
    refine h.setTask List.prefix_rfl ?_ ((h.tasks hk).proceed ?_)
    · rw [hk]
      simp [Task.held, hcalling]
    · rw [hcalling]
      rfl
  | @release r k result base hk hreturned hbase =>
    have hk' : ({ k with progress := .released result } : Task).Follows answers s.calls :=
      (h.tasks hk).proceed (by rw [hreturned]; rfl)
    rcases hbase with ⟨rfl, hconn⟩ | hbase
    · refine h.setTask List.prefix_rfl ?_ hk'
      rw [hk]
      simp [Task.held, hreturned, hconn]
    · have hfires := Connection.fires_of_step (a := .endRequest r) hbase
      refine h.setBase hfires rfl ?_ (fun r' hne hr' => ?_) hk'
      · cases hfires with
        | endRequest hr => exact Connection.State.dropConn_requests _ _ _
      · exact Connection.deleting_request hfires (by simpa using hne.symm) hr'

end Inv

theorem inv_invariant (answers : Answers) :
    (machine answers).Invariant Machine.Free (Inv answers) := by
  constructor
  · refine ⟨Connection.holding_invariant.init, ⟨?_, ?_⟩, ?_, ?_, ?_, ?_⟩ <;>
      simp [machine, initial, Connection.initial, Connection.destroyCount]
  · intro s a t h _ ht
    exact h.step (fires_of_step ht)

/-! ## Refinement -/

/-- A task keeps its captures, and what it has once got. -/
structure Task.Continues (k k' : Task) : Prop where
  conn : k'.conn = k.conn
  subject : k'.subject = k.subject
  payload : k'.payload = k.payload
  timeout : k'.timeout = k.timeout
  result : ∀ {result}, k.progress.result = some result → k'.progress.result = some result

theorem Task.Continues.refl (k : Task) : k.Continues k := ⟨rfl, rfl, rfl, rfl, id⟩

/-- Neither a connection object nor a task holds the native connection. -/
def Unheld (s : State) (n : ℕ) : Prop :=
  (∀ o x, s.base.objects o = some x → x.conn ≠ some n) ∧
    ∀ r k, s.tasks r = some k → k.held ≠ some n

/-- In a state of a run, `request_async` is `request_sync` on another thread, on the
native connection that the object held: the task can make the call of `request_sync`,
and makes no other; the call can return, and its result is that of the future. Tasks
pin their native connections. -/
structure Refines (answers : Answers) (s : State) : Prop where
  throws : ∀ conn subject payload timeout,
    Rejects (Messaging.requestAsync answers conn subject payload timeout) s.calls ↔
      Rejects (Messaging.requestSync answers conn subject payload timeout) s.calls
  starts : ∀ {o r x}, s.base.objects o = some x → x.idle → s.tasks r = none →
    ∀ subject payload timeout,
      ∃ t, step answers s (.requestAsync o r subject payload timeout) = some t ∧
        (Rejects (Messaging.requestSync answers x.conn subject payload timeout) s.calls → t = s) ∧
        (¬ Rejects (Messaging.requestSync answers x.conn subject payload timeout) s.calls →
          t.tasks = Function.update s.tasks r
            (some ⟨x.conn, subject, payload, timeout, [], .waiting⟩) ∧
          t.calls = s.calls ∧ t.destroyed = s.destroyed)
  calls : ∀ {r k}, s.tasks r = some k → k.progress = .waiting → ∃ result,
    let made := [requestCall k.conn k.subject k.payload k.timeout]
    (Messaging.requestSync answers k.conn k.subject k.payload k.timeout).outcome s.calls =
        (result, s.calls ++ made) ∧
      step answers s (.call r) = some ({ s with calls := s.calls ++ made }.setTask r
        { k with calls := made, progress := .calling result })
  returns : ∀ {r k result}, s.tasks r = some k → k.progress = .calling result →
    step answers s (.ret r) = some (s.setTask r { k with progress := .returned result })
  releases : ∀ {r k result}, s.tasks r = some k → k.progress = .returned result → ∃ base,
    step answers s (.release r) =
      some { s.setTask r { k with progress := .released result } with base }
  callsOnce : ∀ {r t}, step answers s (.call r) = some t →
    ∃ k, s.tasks r = some k ∧ k.progress = .waiting
  quiet : ∀ {a t}, step answers s a = some t → (∀ r, a ≠ .call r) →
    (∀ o subject payload timeout, a ≠ .requestSync o subject payload timeout) → t.calls = s.calls
  keeps : ∀ {a t r k}, step answers s a = some t → s.tasks r = some k →
    ∃ k', t.tasks r = some k' ∧ k.Continues k'
  follows : ∀ {r k}, s.tasks r = some k → k.Follows answers s.calls
  pins : ∀ {r k n}, s.tasks r = some k → k.held = some n →
    n ∉ s.destroyed ∧ ∃ x, s.base.natives n = some x ∧ x.phase = .active
  once : s.destroyed.Nodup
  last : ∀ {n}, n ∈ s.destroyed → Unheld s n
  ends : ∀ {n x}, s.base.natives n = some x → Unheld s n →
    n ∈ s.destroyed ∨ ∃ p, s.base.deleting p = some (.call n)

namespace Inv

variable {answers : Answers} {s : State}

theorem mem_owners (h : Inv answers s) {r n : ℕ} :
    Connection.Holder.request r ∈ s.base.conns.owners n ↔
      ∃ k, s.tasks r = some k ∧ k.held = some n := by
  rw [h.holding.requests, h.requests, Option.bind_eq_some_iff]

theorem value_of_not_unheld (h : Inv answers s) {n : ℕ} (hn : ¬ Unheld s n) :
    s.base.conns.value n ≠ none := by
  contrapose! hn
  constructor
  · intro o x ho hx
    exact h.holding.value_of_conn ho hx hn
  · intro r k hr hk
    exact SharedHeap.value_ne_none_of_owner _ (h.mem_owners.mpr ⟨k, hr, hk⟩) hn

theorem value_of_unheld (h : Inv answers s) {n : ℕ} (hn : Unheld s n) :
    s.base.conns.value n = none := by
  rw [SharedHeap.value_eq_none_iff, Finset.eq_empty_iff_forall_notMem]
  rintro (o | r) hp
  · obtain ⟨x, ho, hx⟩ := Option.bind_eq_some_iff.mp (h.holding.members.owner_iff.mp hp)
    exact hn.1 o x ho hx
  · obtain ⟨k, hr, hk⟩ := h.mem_owners.mp hp
    exact hn.2 r k hr hk

theorem mem_destroyed (h : Inv answers s) {n : ℕ} :
    n ∈ s.destroyed ↔ ∃ x, s.base.natives n = some x ∧ x.phase ≠ .active := by
  rw [← List.count_pos_iff, h.count, Connection.destroyCount]
  cases s.base.natives n with
  | none => simp
  | some x => by_cases hx : x.phase = .active <;> simp [hx]

theorem keeps {t : State} {a : Action} {r : ℕ} {k : Task} (ht : Fires answers s a t)
    (hr : s.tasks r = some k) : ∃ k', t.tasks r = some k' ∧ k.Continues k' := by
  have hset {r₁ : ℕ} {k₁ k₁' : Task} (hk₁ : s.tasks r₁ = some k₁) (hcont : k₁.Continues k₁') :
      ∃ k', Function.update s.tasks r₁ (some k₁') r = some k' ∧ k.Continues k' := by
    by_cases heq : r = r₁
    · subst r₁
      obtain rfl := Option.some.inj (hr.symm.trans hk₁)
      exact ⟨k₁', Function.update_self _ _ _, hcont⟩
    · exact ⟨k, by rw [Function.update_of_ne heq, hr], .refl k⟩
  cases ht with
  | connection | requestSync | reject => exact ⟨k, hr, .refl k⟩
  | @start _ r₁ _ _ _ _ _ _ hr₁ =>
    have hne : r ≠ r₁ := by
      rintro rfl
      simp [hr] at hr₁
    exact ⟨k, (Function.update_of_ne hne _ _).trans hr, .refl k⟩
  | call hk hwaiting =>
    exact hset hk ⟨rfl, rfl, rfl, rfl, by simp [hwaiting, Progress.result]⟩
  | ret hk hcalling =>
    exact hset hk ⟨rfl, rfl, rfl, rfl, by simp [hcalling, Progress.result]⟩
  | release hk hreturned =>
    exact hset hk ⟨rfl, rfl, rfl, rfl, by simp [hreturned, Progress.result]⟩

/-- An idle object that has a native connection can share it with a new task. -/
theorem shares (h : Inv answers s) {o r n : ℕ} {x : Connection.Object}
    (ho : s.base.objects o = some x) (hx : x.idle) (hconn : x.conn = some n)
    (hr : s.tasks r = none) : ∃ base, Connection.requestAsync s.base o r = some base := by
  obtain ⟨conn, callbackState, callbackHandlers, pc, lent⟩ := x
  obtain ⟨rfl, rfl⟩ := hx
  obtain rfl := hconn
  have hnone : s.base.requests r = none := by rw [h.requests, hr, Option.bind_none]
  simp [Connection.requestAsync, ho, hnone, h.unused hr]

end Inv

section Starts

variable {answers : Answers} {s : State} {o r : ℕ} {x : Connection.Object}
  (ho : s.base.objects o = some x) (hx : x.idle) (hr : s.tasks r = none) (subject : String)
  {payload : Payload} (timeout : Int64)
include ho hx hr

theorem step_requestAsync_of_gt (hsize : payload.size > intMax) :
    step answers s (.requestAsync o r subject payload timeout) = some s := by
  obtain ⟨what, hasync⟩ := requestAsync_of_gt answers x.conn subject payload timeout s.calls hsize
  simp [step, requestAsync, ho, hr, hx, hasync]

theorem step_requestAsync_of_le (h : Inv answers s) (hsize : ¬ payload.size > intMax) :
    ∃ base, step answers s (.requestAsync o r subject payload timeout) =
      some { s.setTask r ⟨x.conn, subject, payload, timeout, [], .waiting⟩ with base } := by
  have hasync := requestAsync_of_le answers x.conn subject payload timeout s.calls hsize
  cases hconn : x.conn with
  | none =>
    rw [hconn] at hasync
    exact ⟨s.base, by simp [step, requestAsync, ho, hr, hx, hconn, hasync, State.setTask]⟩
  | some n =>
    obtain ⟨base, hbase⟩ := h.shares ho hx hconn hr
    rw [hconn] at hasync
    exact ⟨base, by simp [step, requestAsync, ho, hr, hx, hconn, hasync, hbase]⟩

end Starts

/-- The task makes the call that `request_sync` would make now. -/
theorem step_call {answers : Answers} {s : State} (h : Inv answers s) {r : ℕ}
    {k : Task} (hr : s.tasks r = some k) (hwaiting : k.progress = .waiting) : ∃ result,
      let made := [requestCall k.conn k.subject k.payload k.timeout]
      (Messaging.requestSync answers k.conn k.subject k.payload k.timeout).outcome s.calls =
          (result, s.calls ++ made) ∧
        step answers s (.call r) = some ({ s with calls := s.calls ++ made }.setTask r
          { k with calls := made, progress := .calling result }) := by
  have hk := h.tasks hr
  obtain ⟨result, hout, -⟩ :=
    natsConnectionRequest_cases answers k.conn k.subject k.payload k.timeout s.calls
  refine ⟨result, ?_, ?_⟩
  · rw [requestSync_of_le answers k.conn k.subject k.payload k.timeout s.calls hk.size, hout]
  · have hnone : k.calls = [] := hk.waiting (by rw [hwaiting]; rfl)
    simp [step, call, hr, hwaiting, Task.body, hout, hnone]

/-- The copy of `conn_` that a task has kept until now can be let go of. -/
theorem step_release {answers : Answers} {s : State} (h : Inv answers s) {r : ℕ} {k : Task}
    {result : Except Error (Option ℕ)} (hr : s.tasks r = some k)
    (hreturned : k.progress = .returned result) : ∃ base,
      step answers s (.release r) =
        some { s.setTask r { k with progress := .released result } with base } := by
  cases hconn : k.conn with
  | none => exact ⟨s.base, by simp [step, release, hr, hreturned, hconn, State.setTask]⟩
  | some n =>
    have hreq : s.base.requests r = some n := by
      rw [h.requests, hr]
      simp [Task.held, hreturned, hconn]
    obtain ⟨base, hbase⟩ : ∃ base, Connection.endRequest s.base r = some base := by
      simp [Connection.endRequest, hreq]
    exact ⟨base, by simp [step, release, hr, hreturned, hconn, hbase, State.setTask]⟩

theorem refines_of_inv {answers : Answers} {s : State} (h : Inv answers s) : Refines answers s where
  throws conn subject payload timeout := by
    rw [rejects_requestAsync_iff, rejects_requestSync_iff]
  starts {o r x} ho hx hr subject payload timeout := by
    rw [rejects_requestSync_iff]
    by_cases hsize : payload.size > intMax
    · exact ⟨s, step_requestAsync_of_gt ho hx hr subject timeout hsize, fun _ => rfl,
        fun hnot => (hnot hsize).elim⟩
    · obtain ⟨base, hbase⟩ := step_requestAsync_of_le ho hx hr subject timeout h hsize
      exact ⟨_, hbase, fun hgt => (hsize hgt).elim, fun _ => ⟨rfl, rfl, rfl⟩⟩
  calls hr hwaiting := step_call h hr hwaiting
  returns hr hcalling := by simp [step, ret, hr, hcalling]
  releases hr hreturned := step_release h hr hreturned
  callsOnce {r t} ht := by
    cases fires_of_step ht with
    | call hk hwaiting => exact ⟨_, hk, hwaiting⟩
  quiet ht hcall hsync := calls_of_fires (fires_of_step ht) hcall hsync
  keeps ht hr := Inv.keeps (fires_of_step ht) hr
  follows := h.tasks
  pins {r k n} hr hk := by
    have hvalue := SharedHeap.value_ne_none_of_owner _ (h.mem_owners.mpr ⟨k, hr, hk⟩)
    obtain ⟨x, hx, hactive⟩ := h.holding.deletions.active hvalue
    refine ⟨fun hmem => ?_, x, hx, hactive⟩
    obtain ⟨y, hy, hne⟩ := h.mem_destroyed.mp hmem
    obtain rfl := Option.some.inj (hx.symm.trans hy)
    exact hne hactive
  once := by
    rw [List.nodup_iff_count_le_one]
    intro n
    rw [h.count, Connection.destroyCount]
    split
    · split_ifs <;> omega
    · omega
  last {n} hmem := by
    by_contra hheld
    obtain ⟨x, hx, hactive⟩ := h.holding.deletions.active (h.value_of_not_unheld hheld)
    obtain ⟨y, hy, hne⟩ := h.mem_destroyed.mp hmem
    obtain rfl := Option.some.inj (hx.symm.trans hy)
    exact hne hactive
  ends {n x} hn hunheld := by
    by_cases hactive : x.phase = .active
    · right
      obtain ⟨p, d, hd, rfl⟩ := h.pending.pending hn (h.value_of_unheld hunheld) (by simp [hactive])
      obtain ⟨y, hy, hphase⟩ := h.holding.deletions.phase hd
      obtain rfl := Option.some.inj (hn.symm.trans hy)
      refine ⟨p, ?_⟩
      cases d with
      | call m => exact hd
      | ret m | free m => simp [hactive, Connection.Deleting.phase] at hphase
    · exact .inl (h.mem_destroyed.mpr ⟨x, hn, hactive⟩)

/-- In every run, whatever happens to the connection objects meanwhile. -/
theorem requestAsync_refines (answers : Answers) (as : List Action) :
    (machine answers).Throughout (Refines answers) (machine answers).init as :=
  ((inv_invariant answers).throughout (inv_invariant answers).init as).mono fun _ => refines_of_inv

end NatsCpp.RequestAsync
