import NatsCpp.ConnectionHolding

/-!
# How long a registry of message handlers lives

A registry has the connection object that holds it as its only owner, so that it
goes with that object or when a move assignment overwrites it. The native
connection may be kept by a request task, and is destroyed after the registry
even when it is not.
-/
namespace NatsCpp.Connection
open SharedHeap

/-- The registry that each connection object holds. -/
abbrev State.callbackState (s : State) : ℕ → Option ℕ := member (·.callbackState) s.objects

/-- What every run keeps about the registries and their entries. -/
structure Registries (s : State) : Prop where
  members : Members id s.callbackState s.registries
  fresh : ∀ {r}, s.registries.value r ≠ none → r < s.fresh
  subFresh : ∀ {i x}, s.subs i = some x → x.native < s.fresh ∧ x.registry < s.fresh
  entries : ∀ {i x callbacks}, s.subs i = some x → x.destroyed = false →
    s.registries.value x.registry = some callbacks → i ∈ callbacks

namespace Registries

variable {s t : State}

theorem frame (h : Registries s)
    (hstate : t.callbackState = s.callbackState) (hregistries : t.registries = s.registries)
    (hsubs : t.subs = s.subs) (hfresh : s.fresh ≤ t.fresh) : Registries t where
  members := by
    rw [hstate, hregistries]
    exact h.members
  fresh hr := (h.fresh (hregistries ▸ hr)).trans_le hfresh
  subFresh hi := (h.subFresh (hsubs ▸ hi)).imp (·.trans_le hfresh) (·.trans_le hfresh)
  entries hi hx hr := h.entries (hsubs ▸ hi) hx (hregistries ▸ hr)

/-- Registries pass between objects or are freed. -/
theorem released (h : Registries s)
    (hmembers : Members id t.callbackState t.registries)
    (hvalue : ∀ r, t.registries.value r = none ∨ t.registries.value r = s.registries.value r)
    (hsubs : t.subs = s.subs) (hfresh : t.fresh = s.fresh) : Registries t where
  members := hmembers
  fresh {r} hr := by
    rcases hvalue r with hnone | hsame
    · exact (hr hnone).elim
    · exact hfresh ▸ h.fresh (hsame ▸ hr)
  subFresh hi := hfresh ▸ h.subFresh (hsubs ▸ hi)
  entries {i x callbacks} hi hx hr := by
    rcases hvalue x.registry with hnone | hsame
    · rw [hnone] at hr
      contradiction
    · exact h.entries (hsubs ▸ hi) hx (hsame ▸ hr)

theorem defaultConstruct (h : Registries s) {o : ℕ} (ho : s.objects o = none) :
    Registries (defaultConstruct s o) where
  members := by
    have hfree : s.registries.value s.fresh = none := by
      by_contra hne
      exact absurd (h.fresh hne) (lt_irrefl _)
    have hnull : s.callbackState o = none := member_of_none ho
    have hnew : ∀ o', s.callbackState o' ≠ some s.fresh := fun o' ho' =>
      value_ne_none_of_owner _ (h.members.owner_iff.mpr ho') hfree
    have howners : ∀ o' j, id o' ∈ (s.registries.make s.fresh ∅ o).owners j ↔
        id o' ∈ s.registries.owners j ∨ (o' = o ∧ j = s.fresh) := by
      intro o' j
      rw [owners_make]
      split_ifs with hj
      · rw [hj, (value_eq_none_iff _ _).mp hfree]
        simp
      · simp [hj]
    have hput := h.members.replace Function.injective_id hnew howners
    rw [hnull] at hput
    rw [State.callbackState, Connection.defaultConstruct, State.setObject_objects, member_update]
    exact hput
  fresh {r} hr := by
    change (s.registries.make s.fresh ∅ o).value r ≠ none at hr
    rw [value_make] at hr
    split_ifs at hr with heq
    · exact heq ▸ Nat.lt_succ_self _
    · exact Nat.lt_succ_of_lt (h.fresh hr)
  subFresh hi := (h.subFresh hi).imp Nat.lt_succ_of_lt Nat.lt_succ_of_lt
  entries {i x callbacks} hi hx hr := by
    have hne : x.registry ≠ s.fresh := (h.subFresh hi).2.ne
    change (s.registries.make s.fresh ∅ o).value x.registry = some callbacks at hr
    rw [value_make, if_neg hne] at hr
    exact h.entries hi hx hr

/-- An entry is put into a registry, or the entry of a destroyed subscription leaves it. -/
theorem modify (h : Registries s) {r : ℕ} {f : Finset ℕ → Finset ℕ}
    (hobjects : t.objects = s.objects) (hregistries : t.registries = s.registries.modify r f)
    (hfresh : t.fresh = s.fresh)
    (hsub : ∀ {i x}, t.subs i = some x → x.native < s.fresh ∧ x.registry < s.fresh)
    (hentries : ∀ {i x callbacks}, t.subs i = some x → x.destroyed = false →
      s.registries.value x.registry = some callbacks →
      if x.registry = r then i ∈ f callbacks else i ∈ callbacks) : Registries t where
  members := by
    rw [State.callbackState, hobjects, hregistries]
    exact h.members.of_owner_iff fun o j => by rw [owners_modify]
  fresh {j} hj := by
    rw [hregistries, value_modify] at hj
    rw [hfresh]
    apply h.fresh
    split_ifs at hj with heq
    · rintro hnone
      exact hj (by rw [hnone, Option.map_none])
    · exact hj
  subFresh hi := hfresh ▸ hsub hi
  entries {i x callbacks} hi hx hr := by
    rw [hregistries, value_modify] at hr
    split_ifs at hr with heq
    · obtain ⟨old, hold, rfl⟩ := Option.map_eq_some_iff.mp hr
      have hmem := hentries hi hx hold
      rwa [if_pos heq] at hmem
    · have hmem := hentries hi hx hr
      rwa [if_neg heq] at hmem

/-- The entry of a new subscription is made before the subscription is. -/
theorem subscribe (h : Registries s) {o i n r : ℕ} {x : Object} (ho : s.objects o = some x)
    (hstate : x.callbackState = some r) (hn : n < s.fresh) :
    Registries { s with
      registries := s.registries.modify r (insert i)
      subs := Function.update s.subs i (some ⟨n, r, false⟩) } := by
  have howner : id o ∈ s.registries.owners r :=
    h.members.owner_iff.mpr ((member_of_some ho).trans hstate)
  have hr : r < s.fresh := h.fresh (value_ne_none_of_owner _ howner)
  refine h.modify rfl rfl rfl ?_ ?_
  · intro i' x' hi'
    rcases of_update_eq_some hi' with ⟨_, rfl⟩ | ⟨_, hi'⟩
    · exact ⟨hn, hr⟩
    · exact h.subFresh hi'
  · intro i' x' callbacks hi' hx' hvalue
    rcases of_update_eq_some hi' with ⟨rfl, rfl⟩ | ⟨_, hi'⟩
    · rw [if_pos rfl]
      exact Finset.mem_insert_self _ callbacks
    · have hmem := h.entries hi' hx' hvalue
      split_ifs
      · exact Finset.mem_insert_of_mem hmem
      · exact hmem

theorem destroySub (h : Registries s) {i : ℕ} {x : Sub} (hi : s.subs i = some x) :
    Registries { s with
      subs := Function.update s.subs i (some { x with destroyed := true }) } := by
  refine ⟨h.members, h.fresh, ?_, ?_⟩
  · intro i' x' hi'
    rcases of_update_eq_some hi' with ⟨_, rfl⟩ | ⟨_, hi'⟩
    · exact h.subFresh (x := x) hi
    · exact h.subFresh hi'
  · intro i' x' callbacks hi' hx' hvalue
    rcases of_update_eq_some hi' with ⟨_, rfl⟩ | ⟨_, hi'⟩
    · contradiction
    · exact h.entries hi' hx' hvalue

/-- The entry goes only after its subscription. -/
theorem releaseSub (h : Registries s) {i : ℕ} {x : Sub} (hi : s.subs i = some x)
    (hdestroyed : x.destroyed = true) :
    Registries { s with registries := s.registries.modify x.registry (·.erase i) } := by
  refine h.modify (r := x.registry) (f := (·.erase i)) rfl rfl rfl h.subFresh ?_
  intro i' x' callbacks hi' hx' hvalue
  have hmem := h.entries hi' hx' hvalue
  have hne : i' ≠ i := by
    rintro rfl
    rw [Option.some.inj (hi'.symm.trans hi), hdestroyed] at hx'
    contradiction
  split_ifs
  · exact Finset.mem_erase.mpr ⟨hne, hmem⟩
  · exact hmem

theorem step {a : Action} (hh : Holding s) (h : Registries s) (ht : Fires s a t) :
    Registries t := by
  have hsame {o : ℕ} {x x' : Object} (ho : s.objects o = some x)
      (hx : x'.callbackState = x.callbackState) :
      member (·.callbackState) (Function.update s.objects o (some x')) = s.callbackState :=
    member_update_same ho hx
  have hsame₂ {o src : ℕ} {x y x' y' : Object} (ho : s.objects o = some x)
      (hsrc : s.objects src = some y) (hx : x'.callbackState = x.callbackState)
      (hy : y'.callbackState = y.callbackState) (hne : o ≠ src) :
      member (·.callbackState) (Function.update (Function.update s.objects o (some x')) src
        (some y')) = s.callbackState :=
    member_updateTwo_same ho hsrc hne hx hy
  cases ht with
  | construct ho => exact h.defaultConstruct ho
  | @moveConstruct o src y ho hsrc hy =>
    have hne : o ≠ src := by
      rintro rfl
      rw [ho] at hsrc
      contradiction
    have hmoved := h.members.assign Function.injective_id hne
    refine h.released ?_ (fun r => .inr (value_move _ _ _ hne)) rfl rfl
    rw [State.callbackState, member_of_some hsrc, member_of_none ho] at hmoved
    rw [State.callbackState, moveMembers, State.setObject_objects, State.setObject_objects,
      member_update, member_update]
    exact hmoved
  | connect ho => exact h.frame (hsame ho rfl) rfl rfl (Nat.le_succ _)
  | destroy ho | connectThrow hd ho | setHandlers hd ho | dropHandlers hd ho =>
    exact h.frame (hsame ho rfl) rfl rfl le_rfl
  | moveAssignSelf => exact h
  | moveAssign ho hsrc hx hy hne =>
    exact h.frame (hsame₂ ho hsrc rfl rfl hne) rfl rfl le_rfl
  | requestAsync | callDestroy | returnDestroy | freeDeleter | post | dispatch =>
    exact h.frame rfl rfl rfl le_rfl
  | endRequest => exact h.frame rfl rfl rfl le_rfl
  | subscribe ho hconn hstate _ =>
    exact h.subscribe ho hstate (hh.lt_fresh (hh.value_of_conn ho hconn))
  | destroySub hi => exact h.destroySub hi
  | releaseSub hi hdestroyed => exact h.releaseSub hi hdestroyed
  | @resetConn o n engaged x hd ho =>
    rw [resetConn]
    refine h.frame ?_ (by simp) (by simp) (by simp)
    rw [State.callbackState, State.dropConn_objects]
    exact hsame ho rfl
  | @assignConn o src _ x y hd ho hpc hsrc =>
    have hne : o ≠ src := (hh.consistent o x ho).ne (.inl hpc)
    rw [assignConn]
    refine h.frame ?_ (by simp) (by simp) (by simp)
    rw [State.callbackState, State.dropConn_objects]
    exact hsame₂ ho hsrc rfl rfl hne
  | @assignState o src _ x y hd ho hpc hsrc =>
    have hne : o ≠ src := (hh.consistent o x ho).ne (.inr (.inl hpc))
    have hassigned := h.members.assign Function.injective_id hne
    refine h.released ?_ ?_ rfl rfl
    · rw [State.callbackState, member_of_some hsrc, member_of_some ho] at hassigned
      rw [State.callbackState, assignState, State.setObject_objects, State.setObject_objects,
        member_update, member_update]
      exact hassigned
    · intro r
      rw [← value_move s.registries y.callbackState r hne]
      exact value_reset_or _ _ _ _
  | @assignHandlers o src _ x y hd ho hpc hsrc =>
    have hne : o ≠ src := (hh.consistent o x ho).ne (.inr (.inr hpc))
    exact h.frame (hsame₂ ho hsrc rfl rfl hne) rfl rfl le_rfl
  | @dropState o _ x hd ho hpc =>
    have hreset := h.members.reset Function.injective_id o
    refine h.released ?_ ?_ rfl rfl
    · rw [State.callbackState, member_of_some ho] at hreset
      rw [State.callbackState, dropState, State.setObject_objects, member_update]
      exact hreset
    · exact fun r => value_reset_or _ _ _ _
  | @dropConn o _ x hd ho hpc =>
    rw [dropConnMember]
    refine h.frame ?_ (by simp) (by simp) (by simp)
    rw [State.callbackState, State.dropConn_objects]
    exact hsame ho rfl
  | @ending o _ x hd ho hpc =>
    have hx : x.callbackHandlers = none ∧ x.callbackState = none ∧ x.conn = none := by
      simpa [Object.Consistent, hpc] using hh.consistent o x ho
    refine h.frame ?_ rfl rfl le_rfl
    have hnull : s.callbackState o = none := (member_of_some ho).trans hx.2.1
    rw [State.callbackState, State.setObject_objects, member_update, Option.bind_none, ← hnull,
      Function.update_eq_self]

end Registries

theorem registries_invariant :
    machine.Invariant Machine.Free fun s => Holding s ∧ Registries s := by
  refine holding_invariant.and (fun _ _ => id) ?_ ?_
  · refine ⟨⟨?_, ?_⟩, ?_, ?_, ?_⟩ <;> simp [machine, initial, member, owners, value]
  · intro s a t hh h _ ht
    exact h.step hh (fires_of_step ht)

/-- nats.c may deliver on a subscription that is not destroyed, of a native
connection that has not been passed to `natsConnection_Destroy`. -/
def MayDeliver (s : State) (x : Sub) : Prop :=
  x.destroyed = false ∧ ∃ y, s.natives x.native = some y ∧ y.phase = .active

/-- Wherever nats.c may deliver, the handler is in a registry that is alive. -/
def ClosuresAlive (s : State) : Prop :=
  ∀ i x, s.subs i = some x → MayDeliver s x →
    ∃ callbacks, s.registries.value x.registry = some callbacks ∧ i ∈ callbacks

/-- The effects by which an object lets go of its registry. -/
def Pc.endsState : Pc → Bool
  | .movingState _ | .droppingState => true
  | _ => false

/-- The registry that the object performing a step lets go of. -/
def endedRegistry (s : State) : Action → Option ℕ
  | .advance (.object o) _ =>
    if (s.deleting (.object o)).isNone ∧ (s.objects o).any (·.pc.endsState) then s.callbackState o
    else none
  | _ => none

/-- No object lets go of a registry with a handler that nats.c may still call. -/
def KeepsRegistries (s : State) (a : Action) : Prop :=
  ∀ i x, s.subs i = some x → MayDeliver s x → endedRegistry s a ≠ some x.registry

section Step

variable {s t : State} {a : Action} {o : ℕ} {ok : Bool} {x : Object}

theorem endedRegistry_advance (hd : s.deleting (.object o) = none) (ho : s.objects o = some x) :
    endedRegistry s (.advance (.object o) ok) = if x.pc.endsState then x.callbackState else none := by
  simp [endedRegistry, hd, ho, member]

theorem endedRegistry_deleting {p : Holder} {d : Deleting} (hd : s.deleting p = some d) :
    endedRegistry s (.advance p ok) = none := by
  cases p <;> simp [endedRegistry, hd]

/-- The registry that is let go of is freed, and no other. -/
theorem value_registries_of_step (hh : Holding s) (h : Registries s) (ht : Fires s a t) {r : ℕ}
    (hr : s.registries.value r ≠ none) :
    t.registries.value r = none ↔ endedRegistry s a = some r := by
  have hkept {b : Action} {u : State} (hvalue : u.registries.value r = s.registries.value r)
      (hb : endedRegistry s b = none) :
      u.registries.value r = none ↔ endedRegistry s b = some r := by
    simp [hvalue, hr, hb]
  have hpc {o : ℕ} {ok : Bool} {x : Object} (hd : s.deleting (.object o) = none)
      (ho : s.objects o = some x) {pc : Pc} (hpc : x.pc = pc) (hend : pc.endsState = false) :
      endedRegistry s (.advance (.object o) ok) = none := by
    rw [endedRegistry_advance hd ho, hpc, hend]
    rfl
  -- An object that lets go of its registry is its only owner.
  have hfreed {o : ℕ} {x : Object} (ho : s.objects o = some x) {registries : SharedHeap ℕ ℕ _}
      (hvalue : registries.value r = s.registries.value r)
      (howners : x.callbackState = some r → registries.owners r = {o}) :
      (registries.reset x.callbackState o).value r = none ↔ x.callbackState = some r := by
    rw [value_reset, hvalue]
    constructor
    · intro hnone
      split_ifs at hnone with hx
      · exact hx.1
      · exact (hr hnone).elim
    · intro hx
      rw [if_pos ⟨hx, by rw [howners hx, Finset.erase_singleton]⟩]
  cases ht with
  | construct ho =>
    have hne : r ≠ s.fresh := (h.fresh hr).ne
    exact hkept (by simp [defaultConstruct, hne]) rfl
  | @moveConstruct o src y ho hsrc hy =>
    have hne : o ≠ src := by
      rintro rfl
      rw [ho] at hsrc
      contradiction
    exact hkept (value_move _ _ _ hne) rfl
  | connect | destroy | moveAssignSelf | moveAssign | requestAsync | endRequest | destroySub | post
  | dispatch => exact hkept rfl rfl
  | @subscribe o i n r' x ho hconn hstate hi =>
    simp only [endedRegistry, value_modify, reduceCtorEq, iff_false]
    split_ifs
    · simpa using hr
    · exact hr
  | @releaseSub i x hi hdestroyed =>
    simp only [endedRegistry, value_modify, reduceCtorEq, iff_false]
    split_ifs
    · simpa using hr
    · exact hr
  | callDestroy hd | returnDestroy hd | freeDeleter hd =>
    exact hkept rfl (endedRegistry_deleting hd)
  | resetConn hd ho hx | assignConn hd ho hx =>
    exact hkept (by simp [resetConn, assignConn]) (hpc hd ho hx rfl)
  | connectThrow hd ho hx | setHandlers hd ho hx | assignHandlers hd ho hx | dropHandlers hd ho hx
  | ending hd ho hx => exact hkept rfl (hpc hd ho hx rfl)
  | dropConn hd ho hx => exact hkept (by simp [dropConnMember]) (hpc hd ho hx rfl)
  | @assignState o src _ x y hd ho hx hsrc =>
    have hne : o ≠ src := (hh.consistent o x ho).ne (.inr (.inl hx))
    rw [endedRegistry_advance hd ho, hx]
    refine hfreed ho (value_move _ _ _ hne) fun hstate => ?_
    have howners := h.members.owners_eq Function.surjective_id ((member_of_some ho).trans hstate)
    have hother : y.callbackState ≠ some r := fun hy =>
      hne (h.members.distinct ((member_of_some ho).trans hstate) ((member_of_some hsrc).trans hy))
    ext o'
    rw [mem_owners_move _ _ _ hne, howners]
    simp [hother]
  | @dropState o _ x hd ho hx =>
    rw [endedRegistry_advance hd ho, hx]
    exact hfreed ho rfl fun hstate =>
      h.members.owners_eq Function.surjective_id ((member_of_some ho).trans hstate)

/-- A step that frees a registry has no effect on nats.c. -/
theorem frame_of_endedRegistry (ht : Fires s a t) {r : ℕ} (hr : endedRegistry s a = some r) :
    t.subs = s.subs ∧ t.natives = s.natives := by
  have hpc {o : ℕ} {ok : Bool} {x : Object} {P : Prop} (hd : s.deleting (.object o) = none)
      (ho : s.objects o = some x) {pc : Pc} (hpc : x.pc = pc) (hend : pc.endsState = false)
      (hr : endedRegistry s (.advance (.object o) ok) = some r) : P := by
    rw [endedRegistry_advance hd ho, hpc, hend] at hr
    contradiction
  cases ht with
  | construct | moveConstruct | connect | destroy | moveAssignSelf | moveAssign | requestAsync
  | endRequest | subscribe | destroySub | releaseSub | post | dispatch => contradiction
  | callDestroy hd | returnDestroy hd | freeDeleter hd =>
    rw [endedRegistry_deleting hd] at hr
    contradiction
  | resetConn hd ho hx | connectThrow hd ho hx | setHandlers hd ho hx | assignConn hd ho hx
  | assignHandlers hd ho hx | dropHandlers hd ho hx | dropConn hd ho hx | ending hd ho hx =>
    exact hpc hd ho hx rfl hr
  | assignState | dropState => exact ⟨rfl, rfl⟩

/-- A native connection that was there is active only if it was active before. -/
theorem active_of_step (ht : Fires s a t) {n : ℕ} {y : Native} (hn : n < s.fresh)
    (hy : t.natives n = some y) (hactive : y.phase = .active) : s.natives n = some y := by
  cases ht with
  | callDestroy | returnDestroy =>
    rcases of_update_eq_some hy with ⟨_, rfl⟩ | ⟨_, hy⟩
    · contradiction
    · exact hy
  | resetConn =>
    rw [resetConn, State.dropConn_natives] at hy
    rcases of_update_eq_some hy with ⟨rfl, _⟩ | ⟨_, hy⟩
    · exact (lt_irrefl _ hn).elim
    · exact hy
  | assignConn =>
    rw [assignConn, State.dropConn_natives] at hy
    exact hy
  | dropConn =>
    rw [dropConnMember, State.dropConn_natives] at hy
    exact hy
  | _ => exact hy

/-- Deliveries become possible on a new subscription only. -/
theorem mayDeliver_of_step (h : Registries s) (ht : Fires s a t) {i : ℕ} {x : Sub}
    (hi : t.subs i = some x) (hx : MayDeliver t x) :
    (s.subs i = some x ∧ MayDeliver s x) ∨
      (endedRegistry s a = none ∧ s.registries.value x.registry ≠ none) := by
  obtain ⟨hdestroyed, y, hy, hactive⟩ := hx
  have hold (hs : s.subs i = some x) : s.subs i = some x ∧ MayDeliver s x :=
    ⟨hs, hdestroyed, y, active_of_step ht (h.subFresh hs).1 hy hactive, hactive⟩
  cases ht with
  | @subscribe o i' n r x' ho hconn hstate hnew =>
    rcases of_update_eq_some hi with ⟨_, rfl⟩ | ⟨_, hs⟩
    · refine .inr ⟨rfl, value_ne_none_of_owner (w := id o) _ ?_⟩
      exact h.members.owner_iff.mpr ((member_of_some ho).trans hstate)
    · exact .inl (hold hs)
  | destroySub =>
    rcases of_update_eq_some hi with ⟨_, rfl⟩ | ⟨_, hs⟩
    · contradiction
    · exact .inl (hold hs)
  | resetConn =>
    rw [resetConn, State.dropConn_subs] at hi
    exact .inl (hold hi)
  | assignConn =>
    rw [assignConn, State.dropConn_subs] at hi
    exact .inl (hold hi)
  | dropConn =>
    rw [dropConnMember, State.dropConn_subs] at hi
    exact .inl (hold hi)
  | _ => exact .inl (hold hi)

theorem closuresAlive_step_iff (hh : Holding s) (h : Registries s) (halive : ClosuresAlive s)
    (ht : Fires s a t) : ClosuresAlive t ↔ KeepsRegistries s a := by
  have hvalue {i : ℕ} {x : Sub} (hi : s.subs i = some x) (hx : MayDeliver s x) :
      s.registries.value x.registry ≠ none := by
    obtain ⟨callbacks, hsome, _⟩ := halive i x hi hx
    simp [hsome]
  constructor
  · intro halive' i x hi hx hended
    obtain ⟨hsubs, hnatives⟩ := frame_of_endedRegistry ht hended
    have hx' : MayDeliver t x := by
      unfold MayDeliver
      rwa [hnatives]
    obtain ⟨callbacks, hsome, _⟩ := halive' i x (hsubs ▸ hi) hx'
    rw [(value_registries_of_step hh h ht (hvalue hi hx)).mpr hended] at hsome
    contradiction
  · intro hkeep i x hi hx
    have hkept : t.registries.value x.registry ≠ none := by
      rcases mayDeliver_of_step h ht hi hx with ⟨hs, hmay⟩ | ⟨hended, hnew⟩
      · rw [ne_eq, value_registries_of_step hh h ht (hvalue hs hmay)]
        exact hkeep i x hs hmay
      · rw [ne_eq, value_registries_of_step hh h ht hnew, hended]
        simp
    obtain ⟨callbacks, hsome⟩ := Option.ne_none_iff_exists'.mp hkept
    exact ⟨callbacks, hsome, (h.step hh ht).entries hi hx.1 hsome⟩

end Step

/-- In a run every handler that nats.c may call is alive, exactly if no connection
object lets go of its registry while nats.c may deliver to a handler in it. -/
theorem closuresAlive_throughout_iff (as : List Action) :
    machine.Throughout ClosuresAlive machine.init as ↔
      machine.Respects KeepsRegistries machine.init as := by
  refine registries_invariant.throughout_iff ?_ registries_invariant.init ?_ as
  · intro s a t h halive ht
    exact closuresAlive_step_iff h.1 h.2 halive (fires_of_step ht)
  · intro i x hi
    simp [machine, initial] at hi

/-- A connection with a subscription is destroyed. -/
def destroyWithSubscription : List Action :=
  [.construct 0, .connect 0 ∅, .advance (.object 0) true, .advance (.object 0) true,
    .subscribe 0 0, .destroy 0, .advance (.object 0) true, .advance (.object 0) true]

/-- The registry is gone before `natsConnection_Destroy` is called. -/
theorem destroyWithSubscription_not_alive :
    ¬ machine.Throughout ClosuresAlive machine.init destroyWithSubscription := by
  intro h
  have hrun : (machine.run machine.init destroyWithSubscription).map (fun s =>
      (s.subs 0 |>.map fun x => (x.native, x.registry, x.destroyed),
        s.natives 2 |>.map (·.phase), s.registries.value 0)) =
      some (some (2, 0, false), some .active, none) := by
    decide
  obtain ⟨s, hs, hview⟩ := Option.map_eq_some_iff.mp hrun
  simp only [Prod.mk.injEq, Option.map_eq_some_iff] at hview
  obtain ⟨⟨x, hx, hnative, hregistry, hdestroyed⟩, ⟨y, hy, hactive⟩, hdead⟩ := hview
  have hmay : MayDeliver s x := ⟨hdestroyed, y, hnative ▸ hy, hactive⟩
  obtain ⟨callbacks, hsome, _⟩ := (h.of_run hs) 0 x hx hmay
  rw [hregistry, hdead] at hsome
  contradiction

end NatsCpp.Connection
