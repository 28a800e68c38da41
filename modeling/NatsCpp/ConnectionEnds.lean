import NatsCpp.ConnectionEvents
import NatsCpp.ConnectionRegistry
import NatsCpp.RequestAsync

/-!
# What the connection objects leave behind

Whatever is still allocated is on its way out or in the hands of a connection
object, of an operation or of a task. So once the last object has been destroyed,
the last task is over and the last deleter has run, every native connection has
been passed to `natsConnection_Destroy`, once, and no registry and no
`callback_handlers` object is left.
-/
namespace NatsCpp.Connection
open SharedHeap

/-! ## The deleters -/

/-- The deleter of the native connection `n` has the handlers `k` to give back. -/
def Captured (s : State) (n k : ℕ) : Prop :=
  ∃ x, s.natives n = some x ∧ x.handlers = k ∧
    (x.phase ≠ .destroyed ∨ ∃ p, s.deleting p = some (.free n))

/-- The deleters that own handlers have still to run. -/
def Deleters (s : State) : Prop :=
  ∀ n k, HandlersOwner.deleter n ∈ s.handlers.owners k → Captured s n k

section Step

variable {s t : State}

/-- A holder without a deletion may start one; the others go on. -/
theorem deleting_dropConn {p q : Holder} {c : Option ℕ} {d : Deleting} (hp : s.deleting p = none)
    (hq : s.deleting q = some d) : (s.dropConn p c).deleting q = some d := by
  have hne : q ≠ p := by
    rintro rfl
    simp [hp] at hq
  cases c with
  | none => exact hq
  | some m =>
    simp only [State.dropConn]
    split_ifs
    · rw [Function.update_of_ne hne, hq]
    · exact hq

theorem Captured.mono {n k : ℕ} (h : Captured s n k) (hnatives : t.natives n = s.natives n)
    (hdeleting : ∀ p d, s.deleting p = some d → t.deleting p = some d) : Captured t n k := by
  obtain ⟨x, hx, hk, hphase | ⟨p, hp⟩⟩ := h
  · exact ⟨x, hnatives.trans hx, hk, .inl hphase⟩
  · exact ⟨x, hnatives.trans hx, hk, .inr ⟨p, hdeleting _ _ hp⟩⟩

/-- The deletion of another native connection goes on. -/
theorem Captured.other {m k : ℕ} (h : Captured s m k) {p : Holder} {d : Deleting}
    (hd : s.deleting p = some d) (hfree : d ≠ .free m) (hnatives : t.natives m = s.natives m)
    (hdeleting : ∀ q, q ≠ p → t.deleting q = s.deleting q) : Captured t m k := by
  obtain ⟨x, hx, hk, hphase | ⟨q, hq⟩⟩ := h
  · exact ⟨x, hnatives.trans hx, hk, .inl hphase⟩
  · have hne : q ≠ p := by
      rintro rfl
      exact hfree (Option.some.inj (hd.symm.trans hq))
    exact ⟨x, hnatives.trans hx, hk, .inr ⟨q, (hdeleting q hne).trans hq⟩⟩

namespace Deleters

/-- No deleter gets handlers, and none has its handlers taken from it. -/
theorem frame (h : Deleters s)
    (howners : ∀ n k, HandlersOwner.deleter n ∈ t.handlers.owners k →
      HandlersOwner.deleter n ∈ s.handlers.owners k)
    (hnatives : t.natives = s.natives)
    (hdeleting : ∀ p d, s.deleting p = some d → t.deleting p = some d) : Deleters t :=
  fun n k hn => (h n k (howners n k hn)).mono (by rw [hnatives]) hdeleting

theorem callDestroy (h : Deleters s) {p : Holder} {n : ℕ} {x : Native}
    (hd : s.deleting p = some (.call n)) (hn : s.natives n = some x) :
    Deleters (callDestroy s p n x) := by
  intro m k hm
  have hcaptured := h m k hm
  by_cases heq : m = n
  · subst m
    obtain ⟨y, hy, hk, -⟩ := hcaptured
    obtain rfl := Option.some.inj (hn.symm.trans hy)
    exact ⟨_, Function.update_self _ _ _, hk, .inl (by simp)⟩
  · exact hcaptured.other hd (by simp) (Function.update_of_ne heq _ _)
      fun q hq => Function.update_of_ne hq _ _

theorem returnDestroy (h : Deleters s) {p : Holder} {n : ℕ} {x : Native}
    (hd : s.deleting p = some (.ret n)) (hn : s.natives n = some x) :
    Deleters (returnDestroy s p n x) := by
  intro m k hm
  have hcaptured := h m k hm
  by_cases heq : m = n
  · subst m
    obtain ⟨y, hy, hk, -⟩ := hcaptured
    obtain rfl := Option.some.inj (hn.symm.trans hy)
    exact ⟨_, Function.update_self _ _ _, hk, .inr ⟨p, Function.update_self _ _ _⟩⟩
  · exact hcaptured.other hd (by simp) (Function.update_of_ne heq _ _)
      fun q hq => Function.update_of_ne hq _ _

/-- The captures go, and with them the only handlers that the deleter owned. -/
theorem freeDeleter (h : Deleters s) {p : Holder} {n : ℕ} {x : Native}
    (hd : s.deleting p = some (.free n)) (hn : s.natives n = some x) :
    Deleters (freeDeleter s p n x) := by
  intro m k hm
  change _ ∈ (s.handlers.reset (some x.handlers) (.deleter n)).owners k at hm
  obtain ⟨hold, hgone⟩ := (mem_owners_reset _ _ _).mp hm
  have hcaptured := h m k hold
  have hne : n ≠ m := by
    rintro rfl
    obtain ⟨y, hy, hk, -⟩ := hcaptured
    obtain rfl := Option.some.inj (hn.symm.trans hy)
    exact hgone ⟨by rw [hk], rfl⟩
  exact hcaptured.other hd (by simpa using hne) rfl fun q hq => Function.update_of_ne hq _ _

/-- The deleter of a new native connection gets a share of the handlers. -/
theorem resetConn (h : Deleters s) (hh : Holding s) {o k : ℕ} {engaged : Finset Kind} {x : Object}
    (hd : s.deleting (.object o) = none) : Deleters (resetConn s o x k engaged) := by
  intro m j hm
  have hnatives : (Connection.resetConn s o x k engaged).natives =
      Function.update s.natives s.fresh (some ⟨k, engaged, .active⟩) := State.dropConn_natives _ _ _
  rw [Connection.resetConn, State.dropConn_handlers] at hm
  change _ ∈ (s.handlers.share k (.deleter s.fresh)).owners j at hm
  have hcases : HandlersOwner.deleter m ∈ s.handlers.owners j ∨ (j = k ∧ m = s.fresh) := by
    rw [owners_share] at hm
    split_ifs at hm with hj
    · rw [Finset.mem_insert, HandlersOwner.deleter.injEq] at hm
      exact hm.symm.imp_right fun heq => ⟨hj.1, heq⟩
    · exact .inl hm
  obtain hold | ⟨rfl, rfl⟩ := hcases
  · obtain ⟨y, hy, -⟩ := h m j hold
    refine (h m j hold).mono ?_ fun p d hp => deleting_dropConn hd hp
    rw [hnatives, Function.update_of_ne (hh.deletions.fresh hy).ne]
  · exact ⟨_, by rw [hnatives, Function.update_self], rfl, .inl (by simp)⟩

theorem step {a : Action} (h : Deleters s) (hh : Holding s) (hp : Pending s) (ht : Fires s a t) :
    Deleters t := by
  have hsame {t : State} (hhandlers : t.handlers = s.handlers) (hnatives : t.natives = s.natives)
      (hdeleting : ∀ p d, s.deleting p = some d → t.deleting p = some d) : Deleters t :=
    h.frame (fun n k hn => hhandlers ▸ hn) hnatives hdeleting
  have hpassed {c : Option ℕ} {v w : HandlersOwner} (hv : v ≠ w) (hw : ∀ n, v ≠ .deleter n) {n k : ℕ}
      (hn : HandlersOwner.deleter n ∈ (s.handlers.move c w v).owners k) :
      HandlersOwner.deleter n ∈ s.handlers.owners k := by
    obtain ⟨hmem, -⟩ | ⟨-, -, heq⟩ := (mem_owners_move _ _ _ hv).mp hn
    · exact hmem
    · exact (hw n heq.symm).elim
  cases ht with
  | construct | destroy | moveAssign | subscribe | destroySub | releaseSub | assignState | dropState
  | ending | post | dispatch | requestAsync => exact hsame rfl rfl fun _ _ => id
  | moveAssignSelf => exact h
  | @moveConstruct o src y ho hsrc hy =>
    have hne : o ≠ src := by
      rintro rfl
      simp [ho] at hsrc
    exact h.frame (fun n k hn => hpassed (by simpa using hne) (by simp) hn) rfl fun _ _ => id
  | connect ho hx =>
    refine h.frame (fun n k hn => ?_) rfl fun _ _ => id
    change _ ∈ (s.handlers.make s.fresh () _).owners k at hn
    rw [owners_make] at hn
    split_ifs at hn
    · simp at hn
    · exact hn
  | @endRequest r n hr =>
    refine hsame (State.dropConn_handlers _ _ _) (State.dropConn_natives _ _ _) fun p d hd => ?_
    exact deleting_dropConn (hp.requests hr) hd
  | callDestroy hd hn => exact h.callDestroy hd hn
  | returnDestroy hd hn => exact h.returnDestroy hd hn
  | freeDeleter hd hn => exact h.freeDeleter hd hn
  | resetConn hd => exact h.resetConn hh hd
  | @connectThrow o k _ _ hd ho hpc =>
    refine h.frame (fun n j hn => ?_) rfl fun _ _ => id
    exact ((mem_owners_reset s.handlers (some k) j).mp hn).1
  | @dropHandlers o _ x hd ho hpc =>
    refine h.frame (fun n j hn => ?_) rfl fun _ _ => id
    exact ((mem_owners_reset s.handlers x.callbackHandlers j).mp hn).1
  | setHandlers =>
    refine h.frame (fun n k hn => ?_) rfl fun _ _ => id
    exact hpassed (by simp) (by simp) ((mem_owners_reset _ _ _).mp hn).1
  | @assignHandlers o src _ x y hd ho hpc hsrc =>
    have hne := (hh.consistent o x ho).ne (.inr (.inr hpc))
    refine h.frame (fun n k hn => ?_) rfl fun _ _ => id
    exact hpassed (by simpa using hne) (by simp) ((mem_owners_reset _ _ _).mp hn).1
  | assignConn hd | dropConn hd =>
    refine hsame (State.dropConn_handlers _ _ _) (State.dropConn_natives _ _ _) fun p d hq => ?_
    exact deleting_dropConn hd hq

end Deleters

end Step

/-! ## Everything has a holder -/

/-- What every run keeps about native connections, registries and handlers. -/
structure Ownership (s : State) : Prop where
  holding : Holding s
  handlers : Handlers s
  registries : Registries s
  pending : Pending s
  deleters : Deleters s

theorem ownership_invariant : machine.Invariant Machine.Free Ownership where
  init := by
    refine ⟨holding_invariant.init, handlers_invariant.init.2, registries_invariant.init.2,
      ⟨?_, ?_⟩, ?_⟩ <;> simp [machine, initial, Deleters, owners]
  step {s a t} h _ ht := by
    have hfires := fires_of_step ht
    exact ⟨h.holding.step hfires, h.handlers.step h.holding hfires,
      h.registries.step h.holding hfires, h.pending.step h.holding hfires,
      h.deleters.step h.holding h.pending hfires⟩

namespace Ownership

variable {s : State}

/-- A native connection that is not destroyed is held, or is being deleted. -/
theorem native (h : Ownership s) {n : ℕ} {x : Native} (hn : s.natives n = some x)
    (hphase : x.phase ≠ .destroyed) : (∃ o y, s.objects o = some y ∧ y.conn = some n) ∨
      (∃ r, s.requests r = some n) ∨ ∃ p d, s.deleting p = some d ∧ d.native = n := by
  by_cases hvalue : s.conns.value n = none
  · exact .inr (.inr (h.pending.pending hn hvalue hphase))
  · rw [value_eq_none_iff, ← ne_eq, ← Finset.nonempty_iff_ne_empty] at hvalue
    obtain ⟨o | r, hp⟩ := hvalue
    · exact .inl ⟨o, Option.bind_eq_some_iff.mp (h.holding.members.owner_iff.mp hp)⟩
    · exact .inr (.inl ⟨r, h.holding.requests.mp hp⟩)

/-- A registry is the `callback_state_` of an object. -/
theorem registry (h : Ownership s) {r : ℕ} (hr : s.registries.value r ≠ none) :
    ∃ o y, s.objects o = some y ∧ y.callbackState = some r := by
  rw [ne_eq, value_eq_none_iff, ← ne_eq, ← Finset.nonempty_iff_ne_empty] at hr
  obtain ⟨o, ho⟩ := hr
  exact ⟨o, Option.bind_eq_some_iff.mp (h.registries.members.owner_iff.mp ho)⟩

/-- Handlers belong to an object, to a running `connect`, or to a deleter that has to run. -/
theorem handler (h : Ownership s) {k : ℕ} (hk : s.handlers.value k ≠ none) :
    (∃ o y, s.objects o = some y ∧ (y.callbackHandlers = some k ∨ y.pc.handlers = some k)) ∨
      ∃ n, Captured s n k := by
  rw [ne_eq, value_eq_none_iff, ← ne_eq, ← Finset.nonempty_iff_ne_empty] at hk
  obtain ⟨o | o | n, hw⟩ := hk
  · have hplace := (h.handlers.members.owner_iff (o := .object o)).mp hw
    obtain ⟨y, ho, hy⟩ := Option.bind_eq_some_iff.mp hplace
    exact .inl ⟨o, y, ho, .inl hy⟩
  · have hplace := (h.handlers.members.owner_iff (o := .connecting o)).mp hw
    obtain ⟨y, ho, hy⟩ := Option.bind_eq_some_iff.mp hplace
    exact .inl ⟨o, y, ho, .inr hy⟩
  · exact .inr ⟨n, h.deleters n k hw⟩

end Ownership

/-! ## The end of a run -/

/-- `natsConnection_Connect` is the next effect. -/
def Pc.connects : Pc → Bool
  | .connecting .. => true
  | _ => false

/-- The native connections that a step gets from `natsConnection_Connect`. -/
def connected (s : State) : Action → List ℕ
  | .advance (.object o) true =>
    if (s.deleting (.object o)).isNone ∧ (s.objects o).any (·.pc.connects) then [s.fresh] else []
  | _ => []

/-- A native connection that has not been passed to `natsConnection_Destroy`. -/
def activeCount (s : State) (n : ℕ) : ℕ :=
  match s.natives n with
  | some x => if x.phase = .active then 1 else 0
  | none => 0

section Count

variable {s t : State} {a : Action}

theorem activeCount_of_natives (hnatives : t.natives = s.natives) (n : ℕ) :
    activeCount t n = activeCount s n := by
  rw [activeCount, activeCount, hnatives]

theorem activeCount_update {m : ℕ} {x : Native}
    (hnatives : t.natives = Function.update s.natives m (some x)) (n : ℕ) :
    activeCount t n = if n = m then (if x.phase = .active then 1 else 0) else activeCount s n := by
  rw [activeCount, hnatives, Function.update_apply]
  split_ifs with heq <;> simp_all [activeCount]

/-- Connections become active when they are made, and stop when they are destroyed. -/
theorem activeCount_step (h : Deletions s) (ht : Fires s a t) (n : ℕ) :
    activeCount t n + (destroyCalls s a).count n = activeCount s n + (connected s a).count n := by
  have hdeletes {p : Holder} {d : Deleting} {ok : Bool} (hd : s.deleting p = some d) :
      connected s (.advance p ok) = [] := by
    cases p <;> cases ok <;> simp [connected, hd]
  have hsame {t : State} {a : Action} (hnatives : t.natives = s.natives)
      (hdestroy : destroyCalls s a = []) (hconnected : connected s a = []) :
      activeCount t n + (destroyCalls s a).count n = activeCount s n + (connected s a).count n := by
    rw [activeCount_of_natives hnatives, hdestroy, hconnected]
  have hobject {t : State} {o : ℕ} {ok : Bool} {x : Object} (hd : s.deleting (.object o) = none)
      (ho : s.objects o = some x) (hpc : x.pc.connects = false) (hnatives : t.natives = s.natives) :
      activeCount t n + (destroyCalls s (.advance (.object o) ok)).count n =
        activeCount s n + (connected s (.advance (.object o) ok)).count n := by
    refine hsame hnatives (by simp [destroyCalls, hd]) ?_
    cases ok <;> simp [connected, ho, hpc]
  cases ht with
  | construct | moveConstruct | connect | destroy | moveAssign | moveAssignSelf | requestAsync
  | subscribe | destroySub | releaseSub | post | dispatch => rfl
  | endRequest => exact hsame (State.dropConn_natives _ _ _) rfl rfl
  | @callDestroy p _ m x hd hn =>
    obtain ⟨y, hy, hphase⟩ := h.phase hd
    obtain rfl := Option.some.inj (hn.symm.trans hy)
    rw [hdeletes hd, activeCount_update rfl]
    by_cases heq : n = m
    · subst n
      simp [destroyCalls, hd, activeCount, hn, hphase, Deleting.phase]
    · simp [destroyCalls, hd, heq, Ne.symm heq]
  | @returnDestroy p _ m x hd hn =>
    obtain ⟨y, hy, hphase⟩ := h.phase hd
    obtain rfl := Option.some.inj (hn.symm.trans hy)
    rw [hdeletes hd, activeCount_update rfl]
    by_cases heq : n = m
    · subst n
      simp [destroyCalls, hd, activeCount, hn, hphase, Deleting.phase]
    · simp [destroyCalls, hd, heq]
  | freeDeleter hd => exact hsame rfl (by simp [destroyCalls, hd]) (hdeletes hd)
  | @resetConn o k engaged x hd ho hpc =>
    have hnatives : (resetConn s o x k engaged).natives =
        Function.update s.natives s.fresh (some ⟨k, engaged, .active⟩) :=
      State.dropConn_natives _ _ _
    have hnew : s.natives s.fresh = none := by
      by_contra hne
      obtain ⟨y, hy⟩ := Option.ne_none_iff_exists'.mp hne
      exact lt_irrefl _ (h.fresh hy)
    rw [activeCount_update hnatives]
    by_cases heq : n = s.fresh
    · simp [destroyCalls, connected, hd, ho, hpc, Pc.connects, heq, activeCount, hnew]
    · simp [destroyCalls, connected, hd, ho, hpc, Pc.connects, heq, Ne.symm heq]
  | connectThrow hd => exact hsame rfl (by simp [destroyCalls, hd]) rfl
  | setHandlers hd ho hpc | assignState hd ho hpc | assignHandlers hd ho hpc
  | dropHandlers hd ho hpc | dropState hd ho hpc | ending hd ho hpc =>
    exact hobject hd ho (by rw [hpc]; rfl) rfl
  | assignConn hd ho hpc | dropConn hd ho hpc =>
    exact hobject hd ho (by rw [hpc]; rfl) (State.dropConn_natives _ _ _)

end Count

/-- Nobody is left that holds or deletes a native connection. -/
structure Ended (s : State) : Prop where
  objects : ∀ o, s.objects o = none
  requests : ∀ r, s.requests r = none
  deleting : ∀ p, s.deleting p = none

namespace Ended

variable {s : State}

theorem destroyed (hs : Ended s) (h : Ownership s) {n : ℕ} {x : Native}
    (hn : s.natives n = some x) : x.phase = .destroyed := by
  by_contra hphase
  obtain ⟨o, y, ho, -⟩ | ⟨r, hr⟩ | ⟨p, d, hp, -⟩ := h.native hn hphase
  · simp [hs.objects] at ho
  · simp [hs.requests] at hr
  · simp [hs.deleting] at hp

theorem activeCount_eq (hs : Ended s) (h : Ownership s) (n : ℕ) : activeCount s n = 0 := by
  cases hn : s.natives n with
  | none => simp [activeCount, hn]
  | some x => simp [activeCount, hn, hs.destroyed h hn]

theorem value_registries (hs : Ended s) (h : Ownership s) (r : ℕ) :
    s.registries.value r = none := by
  by_contra hr
  obtain ⟨o, y, ho, -⟩ := h.registry hr
  simp [hs.objects] at ho

theorem value_handlers (hs : Ended s) (h : Ownership s) (k : ℕ) : s.handlers.value k = none := by
  by_contra hk
  obtain ⟨o, y, ho, -⟩ | ⟨n, x, hn, -, hphase | ⟨p, hp⟩⟩ := h.handler hk
  · simp [hs.objects] at ho
  · exact hphase (hs.destroyed h hn)
  · simp [hs.deleting] at hp

end Ended

/-- A run that has ended has destroyed each native connection that it made, once, and
leaves no registry and no handlers. -/
theorem ended_leaves_nothing {as : List Action} {s : State}
    (hrun : machine.run machine.init as = some s) (hs : Ended s) :
    (machine.outputs destroyCalls machine.init as).Perm
      (machine.outputs connected machine.init as) ∧
    (machine.outputs destroyCalls machine.init as).Nodup ∧
    (∀ n x, s.natives n = some x → x.phase = .destroyed) ∧
    (∀ r, s.registries.value r = none) ∧ ∀ k, s.handlers.value k = none := by
  have h := ownership_invariant.run ownership_invariant.init hrun
  have honce (n : ℕ) : destroyCount s n ≤ 1 := by
    unfold destroyCount
    split
    · split_ifs <;> omega
    · omega
  obtain ⟨hperm, hnodup⟩ := holding_invariant.outputs_perm
    (fun hs ht n => activeCount_step hs.deletions (fires_of_step ht) n)
    (fun hs ht n => (destroyCount_step hs.deletions (fires_of_step ht) n).ge)
    holding_invariant.init hrun (fun _ => rfl) (hs.activeCount_eq h) honce
  exact ⟨hperm, hnodup, fun n x hn => hs.destroyed h hn, hs.value_registries h,
    hs.value_handlers h⟩

/-- The object goes while a request still runs; the task of the request is the last holder. -/
def destroyDuringRequest : List Action :=
  [.construct 0, .connect 0 {.closed}, .advance (.object 0) true, .advance (.object 0) true,
    .requestAsync 0 0, .destroy 0, .advance (.object 0) true, .advance (.object 0) true,
    .advance (.object 0) true, .advance (.object 0) true, .endRequest 0,
    .advance (.request 0) true, .advance (.request 0) true, .advance (.request 0) true]

theorem destroyDuringRequest_leaves_nothing :
    (machine.outputs destroyCalls machine.init destroyDuringRequest).Perm [2] := by
  obtain ⟨s, hrun, hended⟩ : ∃ s, machine.run machine.init destroyDuringRequest = some s ∧
      Ended s := by
    refine ⟨_, rfl, ⟨?_, ?_, ?_⟩⟩
    · rintro (_ | o) <;> rfl
    · rintro (_ | r) <;> rfl
    · rintro ((_ | o) | (_ | r)) <;> rfl
  exact (ended_leaves_nothing hrun hended).1

end NatsCpp.Connection
