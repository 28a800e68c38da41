import NatsCpp.ConnectionHolding

/-!
# How long the handlers of connection events live

A `callback_handlers` object belongs to the running `connect` that made it, then
to the connection object and to the deleter of the native connection. The
deleter frees its share as soon as `natsConnection_Destroy` has returned, at a
time when events may still be queued.
-/
namespace NatsCpp.Connection
open SharedHeap

/-- The variables of connection objects and of their operations that have handlers. -/
inductive Place where
  | object (o : ℕ)
  | connecting (o : ℕ)
  deriving DecidableEq

def Place.owner : Place → HandlersOwner
  | .object o => .object o
  | .connecting o => .connecting o

theorem Place.owner_injective : Function.Injective Place.owner := by
  intro p q h
  cases p <;> cases q <;> simp [Place.owner] at h <;> rw [h]

/-- What each variable points to. -/
def handlersAt (objects : ℕ → Option Object) : Place → Option ℕ
  | .object o => member (·.callbackHandlers) objects o
  | .connecting o => member (·.pc.handlers) objects o

section HandlersAt

variable {objects : ℕ → Option Object} {o : ℕ} {x : Object}

theorem handlersAt_object (ho : objects o = some x) :
    handlersAt objects (.object o) = x.callbackHandlers :=
  member_of_some ho

theorem handlersAt_connecting (ho : objects o = some x) :
    handlersAt objects (.connecting o) = x.pc.handlers :=
  member_of_some ho

theorem handlersAt_update (y : Option Object) : handlersAt (Function.update objects o y) =
    Function.update (Function.update (handlersAt objects) (.object o) (y.bind (·.callbackHandlers)))
      (.connecting o) (y.bind (·.pc.handlers)) := by
  funext p
  cases p with
  | object o' =>
    by_cases ho : o' = o <;> simp [handlersAt, member_update, ho]
  | connecting o' =>
    by_cases ho : o' = o <;> simp [handlersAt, member_update, ho]

/-- An operation that leaves the local variable of `connect` alone. -/
theorem handlersAt_update_object {y : Option Object}
    (hpc : y.bind (·.pc.handlers) = handlersAt objects (.connecting o)) :
    handlersAt (Function.update objects o y) =
      Function.update (handlersAt objects) (.object o) (y.bind (·.callbackHandlers)) := by
  rw [handlersAt_update, hpc, Function.update_comm (by simp), Function.update_eq_self]

/-- An operation that leaves `callback_handlers_` alone. -/
theorem handlersAt_update_connecting {y : Option Object}
    (hmember : y.bind (·.callbackHandlers) = handlersAt objects (.object o)) :
    handlersAt (Function.update objects o y) =
      Function.update (handlersAt objects) (.connecting o) (y.bind (·.pc.handlers)) := by
  rw [handlersAt_update, hmember, Function.update_eq_self]

theorem handlersAt_update_same {y : Option Object}
    (hmember : y.bind (·.callbackHandlers) = handlersAt objects (.object o))
    (hpc : y.bind (·.pc.handlers) = handlersAt objects (.connecting o)) :
    handlersAt (Function.update objects o y) = handlersAt objects := by
  rw [handlersAt_update_object hpc, hmember, Function.update_eq_self]

/-- An operation that leaves both alone. -/
theorem handlersAt_keep (ho : objects o = some x) {x' : Object}
    (hx : x'.callbackHandlers = x.callbackHandlers) (hpc : x'.pc.handlers = x.pc.handlers) :
    handlersAt (Function.update objects o (some x')) = handlersAt objects := by
  refine handlersAt_update_same ?_ ?_
  · rw [handlersAt_object ho, Option.bind_some, hx]
  · rw [handlersAt_connecting ho, Option.bind_some, hpc]

section TwoObjects

variable {src : ℕ} {y x' y' : Object} (hsrc : objects src = some y) (hne : o ≠ src)
include hsrc hne

theorem handlersAt_keepTwo (ho : objects o = some x) (hx : x'.callbackHandlers = x.callbackHandlers)
    (hxpc : x'.pc.handlers = x.pc.handlers) (hy : y'.callbackHandlers = y.callbackHandlers)
    (hypc : y'.pc.handlers = y.pc.handlers) :
    handlersAt (Function.update (Function.update objects o (some x')) src (some y')) =
      handlersAt objects := by
  have hsrc' : Function.update objects o (some x') src = some y := by
    rw [Function.update_of_ne hne.symm, hsrc]
  rw [handlersAt_keep hsrc' hy hypc, handlersAt_keep ho hx hxpc]

/-- `callback_handlers_` is moved from `src` to `o`. -/
theorem handlersAt_assign (hx : x'.callbackHandlers = y.callbackHandlers)
    (hxpc : x'.pc.handlers = handlersAt objects (.connecting o))
    (hy : y'.callbackHandlers = none) (hypc : y'.pc.handlers = y.pc.handlers) :
    handlersAt (Function.update (Function.update objects o (some x')) src (some y')) =
      Function.update (Function.update (handlersAt objects) (.object o)
        (handlersAt objects (.object src))) (.object src) none := by
  have hsrc' : Function.update objects o (some x') src = some y := by
    rw [Function.update_of_ne hne.symm, hsrc]
  rw [handlersAt_update_object (o := src), handlersAt_update_object (o := o), Option.bind_some,
    Option.bind_some, hx, hy, handlersAt_object hsrc]
  · rw [Option.bind_some, hxpc]
  · rw [handlersAt_connecting hsrc', Option.bind_some, hypc]

end TwoObjects

end HandlersAt

/-- What every run keeps about the owners of `callback_handlers` objects. -/
structure Handlers (s : State) : Prop where
  members : Members Place.owner (handlersAt s.objects) s.handlers
  deleter : ∀ {n x}, s.natives n = some x → x.phase ≠ .destroyed →
    .deleter n ∈ s.handlers.owners x.handlers
  fresh : ∀ {h}, s.handlers.value h ≠ none → h < s.fresh

namespace Handlers

variable {s t : State}

theorem value_fresh (h : Handlers s) : s.handlers.value s.fresh = none := by
  by_contra hne
  exact lt_irrefl _ (h.fresh hne)

/-- Shares of handlers pass between variables, or are let go of. -/
theorem passed (h : Handlers s) (hmembers : Members Place.owner (handlersAt t.objects) t.handlers)
    (hdeleter : ∀ n k, HandlersOwner.deleter n ∈ s.handlers.owners k →
      HandlersOwner.deleter n ∈ t.handlers.owners k)
    (hvalue : ∀ k, t.handlers.value k = none ∨ t.handlers.value k = s.handlers.value k)
    (hnatives : t.natives = s.natives) (hfresh : s.fresh ≤ t.fresh) : Handlers t where
  members := hmembers
  deleter hn hx := hdeleter _ _ (h.deleter (hnatives ▸ hn) hx)
  fresh {k} hk := by
    rcases hvalue k with hnone | hsame
    · exact (hk hnone).elim
    · exact (h.fresh (hsame ▸ hk)).trans_le hfresh

theorem frame (h : Handlers s) (hplaces : handlersAt t.objects = handlersAt s.objects)
    (hhandlers : t.handlers = s.handlers) (hnatives : t.natives = s.natives)
    (hfresh : s.fresh ≤ t.fresh) : Handlers t := by
  refine h.passed ?_ (fun n k hk => hhandlers ▸ hk) (fun k => .inr (by rw [hhandlers])) hnatives hfresh
  rw [hplaces, hhandlers]
  exact h.members

/-- Every variable other than the deleter lets go of handlers that the deleter keeps. -/
theorem deleter_reset (h : SharedHeap ℕ HandlersOwner Unit) (c : Option ℕ) (p : Place) {n k : ℕ}
    (hk : HandlersOwner.deleter n ∈ h.owners k) :
    HandlersOwner.deleter n ∈ (h.reset c p.owner).owners k := by
  rw [mem_owners_reset]
  refine ⟨hk, fun hn => ?_⟩
  cases p <;> simp [Place.owner] at hn

theorem deleter_move (h : SharedHeap ℕ HandlersOwner Unit) (c : Option ℕ) {p q : Place}
    (hne : q ≠ p) {n k : ℕ} (hk : HandlersOwner.deleter n ∈ h.owners k) :
    HandlersOwner.deleter n ∈ (h.move c p.owner q.owner).owners k := by
  rw [mem_owners_move _ _ _ (Place.owner_injective.ne hne)]
  refine .inl ⟨hk, fun hn => ?_⟩
  cases p <;> simp [Place.owner] at hn

/-- A variable lets go of its handlers. -/
theorem reset (h : Handlers s) (p : Place)
    (hplaces : handlersAt t.objects = Function.update (handlersAt s.objects) p none)
    (hhandlers : t.handlers = s.handlers.reset (handlersAt s.objects p) p.owner)
    (hnatives : t.natives = s.natives) (hfresh : t.fresh = s.fresh) : Handlers t := by
  refine h.passed ?_ ?_ ?_ hnatives hfresh.ge
  · rw [hplaces, hhandlers]
    exact h.members.reset Place.owner_injective p
  · intro n k hk
    rw [hhandlers]
    exact deleter_reset _ _ _ hk
  · intro k
    rw [hhandlers]
    exact value_reset_or _ _ _ _

/-- Handlers are moved from one variable to another, which lets go of what it had. -/
theorem assign (h : Handlers s) {p q : Place} (hne : q ≠ p)
    (hplaces : handlersAt t.objects =
      Function.update (Function.update (handlersAt s.objects) q (handlersAt s.objects p)) p none)
    (hhandlers : t.handlers = (s.handlers.move (handlersAt s.objects p) p.owner q.owner).reset
      (handlersAt s.objects q) q.owner)
    (hnatives : t.natives = s.natives) (hfresh : t.fresh = s.fresh) : Handlers t := by
  refine h.passed ?_ ?_ ?_ hnatives hfresh.ge
  · rw [hplaces, hhandlers]
    exact h.members.assign Place.owner_injective hne
  · intro n k hk
    rw [hhandlers]
    exact deleter_reset _ _ _ (deleter_move _ _ hne hk)
  · intro k
    rw [hhandlers, ← value_move s.handlers (handlersAt s.objects p) k (Place.owner_injective.ne hne)]
    exact value_reset_or _ _ _ _

/-- `connect` makes its handlers. -/
theorem make (h : Handlers s) {p : Place} (hnull : handlersAt s.objects p = none)
    (hplaces : handlersAt t.objects = Function.update (handlersAt s.objects) p (some s.fresh))
    (hhandlers : t.handlers = s.handlers.make s.fresh () p.owner)
    (hnatives : t.natives = s.natives) (hfresh : t.fresh = s.fresh + 1) : Handlers t := by
  have hfree := h.value_fresh
  refine ⟨?_, ?_, ?_⟩
  · have hnew : ∀ q, handlersAt s.objects q ≠ some s.fresh := fun q hq =>
      value_ne_none_of_owner _ (h.members.owner_iff.mpr hq) hfree
    have howners : ∀ q k, q.owner ∈ (s.handlers.make s.fresh () p.owner).owners k ↔
        q.owner ∈ s.handlers.owners k ∨ (q = p ∧ k = s.fresh) := by
      intro q k
      rw [owners_make]
      split_ifs with hk
      · rw [hk, (value_eq_none_iff _ _).mp hfree]
        simp [Place.owner_injective.eq_iff]
      · simp [hk]
    have hput := h.members.replace Place.owner_injective hnew howners
    rw [hnull] at hput
    rw [hplaces, hhandlers]
    exact hput
  · intro n x hn hx
    have hmem := h.deleter (hnatives ▸ hn) hx
    have hne : x.handlers ≠ s.fresh := (h.fresh (value_ne_none_of_owner _ hmem)).ne
    rw [hhandlers, owners_make, if_neg hne]
    exact hmem
  · intro k hk
    rw [hhandlers, value_make] at hk
    rw [hfresh]
    split_ifs at hk with heq
    · exact heq ▸ Nat.lt_succ_self _
    · exact Nat.lt_succ_of_lt (h.fresh hk)

/-- The deleter of a new native connection gets its share. -/
theorem share (h : Handlers s) {x : Native} (hx : s.handlers.value x.handlers ≠ none)
    (hplaces : handlersAt t.objects = handlersAt s.objects)
    (hhandlers : t.handlers = s.handlers.share x.handlers (.deleter s.fresh))
    (hnatives : t.natives = Function.update s.natives s.fresh (some x))
    (hfresh : t.fresh = s.fresh + 1) : Handlers t := by
  refine ⟨?_, ?_, ?_⟩
  · rw [hplaces, hhandlers]
    refine h.members.of_owner_iff fun p k => ?_
    rw [owners_share]
    split_ifs
    · cases p <;> simp [Place.owner]
    · exact Iff.rfl
  · intro n y hn hy
    rw [hhandlers, owners_share]
    rw [hnatives] at hn
    rcases of_update_eq_some hn with ⟨rfl, rfl⟩ | ⟨_, hn⟩
    · rw [if_pos ⟨rfl, hx⟩]
      exact Finset.mem_insert_self _ _
    · have hmem := h.deleter hn hy
      split_ifs
      · exact Finset.mem_insert_of_mem hmem
      · exact hmem
  · intro k hk
    rw [hhandlers, value_share] at hk
    rw [hfresh]
    exact Nat.lt_succ_of_lt (h.fresh hk)

/-- `natsConnection_Destroy` goes on. -/
theorem destroy (h : Handlers s) {n : ℕ} {x x' : Native} (hn : s.natives n = some x)
    (hphase : x.phase ≠ .destroyed) (hobjects : t.objects = s.objects)
    (hhandlers : t.handlers = s.handlers)
    (hnatives : t.natives = Function.update s.natives n (some x')) (hfresh : t.fresh = s.fresh)
    (hx : x'.handlers = x.handlers) : Handlers t := by
  refine ⟨?_, ?_, ?_⟩
  · rw [hobjects, hhandlers]
    exact h.members
  · intro m y hm hy
    rw [hhandlers]
    rw [hnatives] at hm
    rcases of_update_eq_some hm with ⟨rfl, rfl⟩ | ⟨_, hm⟩
    · rw [hx]
      exact h.deleter hn hphase
    · exact h.deleter hm hy
  · rw [hhandlers, hfresh]
    exact h.fresh

/-- The deleter of a destroyed native connection gives its share back. -/
theorem freeDeleter (h : Handlers s) {p : Holder} {n : ℕ} {x : Native} (hn : s.natives n = some x)
    (hphase : x.phase = .destroyed) : Handlers (freeDeleter s p n x) where
  members := by
    refine h.members.of_owner_iff fun q k => ?_
    change q.owner ∈ (s.handlers.reset (some x.handlers) (.deleter n)).owners k ↔ _
    rw [mem_owners_reset]
    cases q <;> simp [Place.owner]
  deleter {m y} hm hy := by
    change _ ∈ (s.handlers.reset (some x.handlers) (.deleter n)).owners y.handlers
    rw [mem_owners_reset]
    refine ⟨h.deleter hm hy, fun heq => ?_⟩
    have hsame : y = x := by
      rw [HandlersOwner.deleter.inj heq.2] at hm
      exact Option.some.inj (hm.symm.trans hn)
    exact hy (hsame ▸ hphase)
  fresh {k} hk := by
    rcases value_reset_or s.handlers (some x.handlers) k (.deleter n) with hnone | hsame
    · exact (hk hnone).elim
    · exact h.fresh (hsame ▸ hk)

theorem step {a : Action} (hh : Holding s) (h : Handlers s) (ht : Fires s a t) : Handlers t := by
  have hidle {x : Object} (hx : x.idle) : x.pc.handlers = none := by
    rw [hx.1]
    rfl
  cases ht with
  | construct ho =>
    refine h.frame (handlersAt_update_same ?_ ?_) rfl rfl (Nat.le_succ _)
    · exact (member_of_none ho).symm
    · exact (member_of_none ho).symm
  | @moveConstruct o src y ho hsrc hy =>
    have hne : o ≠ src := by
      rintro rfl
      rw [ho] at hsrc
      contradiction
    have hnull : handlersAt s.objects (.object o) = none := member_of_none ho
    have hpc : y.pc.handlers = handlersAt s.objects (.connecting o) :=
      (hidle hy).trans (member_of_none ho).symm
    refine h.assign (p := .object src) (q := .object o) (by simpa using hne)
      (handlersAt_assign hsrc hne rfl hpc rfl rfl) ?_ rfl rfl
    rw [hnull, handlersAt_object hsrc]
    rfl
  | @connect o engaged x ho hx =>
    have hnull : handlersAt s.objects (.connecting o) = none :=
      (handlersAt_connecting ho).trans (hidle hx)
    refine h.make hnull (handlersAt_update_connecting ?_) rfl rfl rfl
    exact (handlersAt_object ho).symm
  | destroy ho hx => exact h.frame (handlersAt_keep ho rfl (hidle hx).symm) rfl rfl le_rfl
  | moveAssignSelf => exact h
  | moveAssign ho hsrc hx hy hne =>
    exact h.frame (handlersAt_keepTwo hsrc hne ho rfl (hidle hx).symm rfl rfl) rfl rfl le_rfl
  | requestAsync | endRequest | subscribe | destroySub | releaseSub | post | dispatch =>
    exact h.frame rfl rfl rfl le_rfl
  | @callDestroy p _ n x hd hn | @returnDestroy p _ n x hd hn =>
    obtain ⟨y, hy, hphase⟩ := hh.deletions.phase hd
    have hx : x.phase ≠ .destroyed := by
      rw [Option.some.inj (hn.symm.trans hy), hphase]
      simp [Deleting.phase]
    exact h.destroy hn hx rfl rfl rfl rfl rfl
  | @freeDeleter p _ n x hd hn =>
    obtain ⟨y, hy, hphase⟩ := hh.deletions.phase hd
    refine h.freeDeleter hn ?_
    rw [Option.some.inj (hn.symm.trans hy), hphase]
    rfl
  | @resetConn o k engaged x hd ho hpc =>
    have hk : handlersAt s.objects (.connecting o) = some k := by
      rw [handlersAt_connecting ho, hpc]
      rfl
    have hvalue : s.handlers.value k ≠ none :=
      value_ne_none_of_owner _ (h.members.owner_iff.mpr hk)
    refine h.share (x := ⟨k, engaged, .active⟩) hvalue ?_ (by simp [resetConn]) (by simp [resetConn])
      (by simp [resetConn])
    rw [resetConn, State.dropConn_objects]
    exact handlersAt_keep ho rfl (by rw [hpc]; rfl)
  | @connectThrow o k engaged x hd ho hpc =>
    have hk : handlersAt s.objects (.connecting o) = some k := by
      rw [handlersAt_connecting ho, hpc]
      rfl
    refine h.reset (.connecting o) (handlersAt_update_connecting ?_) ?_ rfl rfl
    · exact (handlersAt_object ho).symm
    · rw [hk]
      rfl
  | @setHandlers o k _ x hd ho hpc =>
    have hk : handlersAt s.objects (.connecting o) = some k := by
      rw [handlersAt_connecting ho, hpc]
      rfl
    refine h.assign (p := .connecting o) (q := .object o) (by simp) ?_ ?_ rfl rfl
    · rw [hk]
      exact handlersAt_update _
    · rw [hk, handlersAt_object ho]
      rfl
  | @assignConn o src _ x y hd ho hpc hsrc =>
    have hne := (hh.consistent o x ho).ne (.inl hpc)
    refine h.frame ?_ (by simp [assignConn]) (by simp [assignConn]) (by simp [assignConn])
    rw [assignConn, State.dropConn_objects]
    exact handlersAt_keepTwo hsrc hne ho rfl (by rw [hpc]; rfl) rfl rfl
  | @assignState o src _ x y hd ho hpc hsrc =>
    have hne := (hh.consistent o x ho).ne (.inr (.inl hpc))
    exact h.frame (handlersAt_keepTwo hsrc hne ho rfl (by rw [hpc]; rfl) rfl rfl) rfl rfl le_rfl
  | @assignHandlers o src _ x y hd ho hpc hsrc =>
    have hne := (hh.consistent o x ho).ne (.inr (.inr hpc))
    have hxpc : Pc.handlers .idle = handlersAt s.objects (.connecting o) := by
      rw [handlersAt_connecting ho, hpc]
      rfl
    refine h.assign (p := .object src) (q := .object o) (by simpa using hne)
      (handlersAt_assign hsrc hne rfl hxpc rfl rfl) ?_ rfl rfl
    rw [handlersAt_object ho, handlersAt_object hsrc]
    rfl
  | @dropHandlers o _ x hd ho hpc =>
    refine h.reset (.object o) (handlersAt_update_object ?_) ?_ rfl rfl
    · rw [handlersAt_connecting ho, hpc]
      rfl
    · rw [handlersAt_object ho]
      rfl
  | dropState hd ho hpc => exact h.frame (handlersAt_keep ho rfl (by rw [hpc]; rfl)) rfl rfl le_rfl
  | dropConn hd ho hpc =>
    refine h.frame ?_ (by simp [dropConnMember]) (by simp [dropConnMember]) (by simp [dropConnMember])
    rw [dropConnMember, State.dropConn_objects]
    exact handlersAt_keep ho rfl (by rw [hpc]; rfl)
  | @ending o _ x hd ho hpc =>
    have hx : x.callbackHandlers = none ∧ x.callbackState = none ∧ x.conn = none := by
      simpa [Object.Consistent, hpc] using hh.consistent o x ho
    refine h.frame (handlersAt_update_same ?_ ?_) rfl rfl le_rfl
    · rw [handlersAt_object ho, hx.1]
      rfl
    · rw [handlersAt_connecting ho, hpc]
      rfl

end Handlers

theorem handlers_invariant :
    machine.Invariant Machine.Free fun s => Holding s ∧ Handlers s := by
  refine holding_invariant.and (fun _ _ => id) ?_ ?_
  · refine ⟨⟨?_, ?_⟩, ?_, ?_⟩
    · rintro (o | o) <;> simp [machine, initial, handlersAt, member, owners]
    · rintro (o | o) <;> simp [machine, initial, handlersAt, member]
    · simp [machine, initial]
    · simp [machine, initial, value]
  · intro s a t hh h _ ht
    exact h.step hh (fires_of_step ht)

/-- The handlers that a bridge function dereferences are alive, for every queued event. -/
def EventsAlive (s : State) : Prop :=
  ∀ e ∈ s.events, s.handlers.value e.handlers ≠ none

/-- The handlers that the operation running on an object lets go of, with their owner. -/
def Object.releases (o : ℕ) (ok : Bool) (x : Object) : Option (ℕ × HandlersOwner) :=
  match x.pc with
  | .connecting h _ => if ok then none else some (h, .connecting o)
  | .settingHandlers _ | .movingHandlers _ | .droppingHandlers =>
    x.callbackHandlers.map (·, .object o)
  | _ => none

/-- The handlers that a step lets go of, with their owner. -/
def releasedHandlers (s : State) : Action → Option (ℕ × HandlersOwner)
  | .advance p ok =>
    match s.deleting p, p with
    | some (.free n), _ => (s.natives n).map fun x => (x.handlers, .deleter n)
    | none, .object o => (s.objects o).bind (·.releases o ok)
    | _, _ => none
  | _ => none

/-- No last owner lets go of handlers while an event that gets them is queued. -/
def KeepsHandlers (s : State) (a : Action) : Prop :=
  ∀ e ∈ s.events, ∀ w, releasedHandlers s a = some (e.handlers, w) →
    s.handlers.owners e.handlers ≠ {w}

section Step

variable {s t : State} {a : Action}

theorem releasedHandlers_object {o : ℕ} {ok : Bool} {x : Object}
    (hd : s.deleting (.object o) = none) (ho : s.objects o = some x) :
    releasedHandlers s (.advance (.object o) ok) = x.releases o ok := by
  simp [releasedHandlers, hd, ho]

/-- The handlers of which the last owner lets go are freed, and no others. -/
theorem value_handlers_of_step (hh : Holding s) (h : Handlers s) (ht : Fires s a t) {k : ℕ}
    (hk : s.handlers.value k ≠ none) : t.handlers.value k = none ↔
      ∃ w, releasedHandlers s a = some (k, w) ∧ s.handlers.owners k = {w} := by
  have hkept {b : Action} {u : State} (hvalue : u.handlers.value k = s.handlers.value k)
      (hb : releasedHandlers s b = none) :
      u.handlers.value k = none ↔
        ∃ w, releasedHandlers s b = some (k, w) ∧ s.handlers.owners k = {w} := by
    simp [hvalue, hk, hb]
  have hobject {o : ℕ} {ok : Bool} {x : Object} (hd : s.deleting (.object o) = none)
      (ho : s.objects o = some x) (hx : x.releases o ok = none) :
      releasedHandlers s (.advance (.object o) ok) = none :=
    (releasedHandlers_object hd ho).trans hx
  -- The owner `w` resets the pointer `c`; before that, another pointer may have been moved.
  have hreset {b : Action} {c : Option ℕ} {w : HandlersOwner} {moved : SharedHeap ℕ HandlersOwner Unit}
      (hvalue : moved.value k = s.handlers.value k)
      (howners : c = some k → moved.owners k = s.handlers.owners k)
      (hb : releasedHandlers s b = c.map (·, w)) :
      (moved.reset c w).value k = none ↔
        ∃ v, releasedHandlers s b = some (k, v) ∧ s.handlers.owners k = {v} := by
    rw [value_reset_eq_none_iff _ _ _ (by rwa [hvalue]), hb]
    constructor
    · rintro ⟨rfl, hw⟩
      exact ⟨w, rfl, howners rfl ▸ hw⟩
    · rintro ⟨v, hv, hw⟩
      obtain ⟨j, rfl, hj⟩ := Option.map_eq_some_iff.mp hv
      obtain ⟨rfl, rfl⟩ := Prod.mk.inj hj
      exact ⟨rfl, (howners rfl).trans hw⟩
  have hassign {p q : Place} (hne : q ≠ p) (hc : handlersAt s.objects q = some k) :
      (s.handlers.move (handlersAt s.objects p) p.owner q.owner).owners k = s.handlers.owners k :=
    owners_move_of_ne _ _ _ (Place.owner_injective.ne hne) fun hp => hne (h.members.distinct hc hp)
  cases ht with
  | construct | destroy | moveAssignSelf | moveAssign | requestAsync | endRequest | subscribe
  | destroySub | releaseSub | post | dispatch => exact hkept rfl rfl
  | @moveConstruct o src y ho hsrc hy =>
    have hne : o ≠ src := by
      rintro rfl
      rw [ho] at hsrc
      contradiction
    exact hkept (value_move _ _ _ (by simpa using hne)) rfl
  | connect => exact hkept (by simp [makeHandlers, (h.fresh hk).ne]) rfl
  | callDestroy hd | returnDestroy hd => exact hkept rfl (by simp [releasedHandlers, hd])
  | @freeDeleter p ok n x hd hn =>
    refine hreset (b := .advance p ok) (c := some x.handlers) (w := .deleter n) rfl (fun _ => rfl) ?_
    simp [releasedHandlers, hd, hn]
  | @resetConn o j engaged x hd ho hpc =>
    exact hkept (by simp [resetConn]) (hobject hd ho (by simp [Object.releases, hpc]))
  | @connectThrow o j engaged x hd ho hpc =>
    refine hreset (c := some j) (w := .connecting o) rfl (fun _ => rfl)
      ((releasedHandlers_object hd ho).trans ?_)
    simp [Object.releases, hpc]
  | @setHandlers o j _ x hd ho hpc =>
    have hj : handlersAt s.objects (.connecting o) = some j := by
      rw [handlersAt_connecting ho, hpc]
      rfl
    refine hreset (value_move _ _ _ (by simp)) (fun hx => ?_)
      ((releasedHandlers_object hd ho).trans (by simp [Object.releases, hpc]))
    have hmoved := hassign (p := .connecting o) (q := .object o) (by simp)
      ((handlersAt_object ho).trans hx)
    rwa [hj] at hmoved
  | @assignHandlers o src _ x y hd ho hpc hsrc =>
    have hne := (hh.consistent o x ho).ne (.inr (.inr hpc))
    refine hreset (value_move _ _ _ (by simpa using hne)) (fun hx => ?_)
      ((releasedHandlers_object hd ho).trans (by simp [Object.releases, hpc]))
    have hmoved := hassign (p := .object src) (q := .object o) (by simpa using hne)
      ((handlersAt_object ho).trans hx)
    rwa [handlersAt_object hsrc] at hmoved
  | @dropHandlers o _ x hd ho hpc =>
    refine hreset rfl (fun _ => rfl) ((releasedHandlers_object hd ho).trans ?_)
    simp [Object.releases, hpc]
  | assignConn hd ho hpc =>
    exact hkept (by simp [assignConn]) (hobject hd ho (by simp [Object.releases, hpc]))
  | dropConn hd ho hpc =>
    exact hkept (by simp [dropConnMember]) (hobject hd ho (by simp [Object.releases, hpc]))
  | assignState hd ho hpc | dropState hd ho hpc | ending hd ho hpc =>
    exact hkept rfl (hobject hd ho (by simp [Object.releases, hpc]))

/-- Only nats.c queues events, for a native connection that it has not destroyed. -/
theorem events_of_step (ht : Fires s a t) {e : Event} (he : e ∈ t.events) :
    e ∈ s.events ∨ (t.handlers = s.handlers ∧
      ∃ n x, s.natives n = some x ∧ x.phase ≠ .destroyed ∧ e.handlers = x.handlers) := by
  cases ht with
  | @post n kind x hn hkind hphase =>
    rcases List.mem_cons.mp he with rfl | he
    · exact .inr ⟨rfl, n, x, hn, hphase, rfl⟩
    · exact .inl he
  | dispatch => exact .inl (List.mem_of_mem_erase he)
  | resetConn =>
    rw [resetConn, State.dropConn_events] at he
    exact .inl he
  | assignConn =>
    rw [assignConn, State.dropConn_events] at he
    exact .inl he
  | dropConn =>
    rw [dropConnMember, State.dropConn_events] at he
    exact .inl he
  | _ => exact .inl he

/-- No event leaves the queue in a step that lets go of handlers. -/
theorem events_of_release (ht : Fires s a t) {r : ℕ × HandlersOwner}
    (hr : releasedHandlers s a = some r) {e : Event} (he : e ∈ s.events) : e ∈ t.events := by
  cases ht with
  | post => exact List.mem_cons_of_mem _ he
  | dispatch => contradiction
  | resetConn =>
    rw [resetConn, State.dropConn_events]
    exact he
  | assignConn =>
    rw [assignConn, State.dropConn_events]
    exact he
  | dropConn =>
    rw [dropConnMember, State.dropConn_events]
    exact he
  | _ => exact he

theorem eventsAlive_step_iff (hh : Holding s) (h : Handlers s) (halive : EventsAlive s)
    (ht : Fires s a t) : EventsAlive t ↔ KeepsHandlers s a := by
  constructor
  · intro halive' e he w hw howners
    have hdead := (value_handlers_of_step hh h ht (halive e he)).mpr ⟨w, hw, howners⟩
    exact halive' e (events_of_release ht hw he) hdead
  · intro hkeep e he
    rcases events_of_step ht he with hold | ⟨hhandlers, n, x, hn, hphase, heq⟩
    · rw [ne_eq, value_handlers_of_step hh h ht (halive e hold)]
      rintro ⟨w, hw, howners⟩
      exact hkeep e hold w hw howners
    · rw [hhandlers, heq]
      exact value_ne_none_of_owner _ (h.deleter hn hphase)

end Step

/-- In a run the handlers of every queued event are alive, exactly if no last
owner of handlers lets go of them while an event that gets them is queued. -/
theorem eventsAlive_throughout_iff (as : List Action) :
    machine.Throughout EventsAlive machine.init as ↔
      machine.Respects KeepsHandlers machine.init as := by
  refine handlers_invariant.throughout_iff ?_ handlers_invariant.init ?_ as
  · intro s a t h halive ht
    exact eventsAlive_step_iff h.1 h.2 halive (fires_of_step ht)
  · intro e he
    simp [machine, initial] at he

/-- A connection with a closed callback is destroyed; `natsConnection_Destroy`
queues the closed event and returns. -/
def destroyThenClosed : List Action :=
  [.construct 0, .connect 0 {.closed}, .advance (.object 0) true, .advance (.object 0) true,
    .destroy 0, .advance (.object 0) true, .advance (.object 0) true, .advance (.object 0) true,
    .advance (.object 0) true, .post 2 .closed, .advance (.object 0) true, .advance (.object 0) true]

/-- The deleter frees the handlers while the event is queued. -/
theorem destroyThenClosed_not_alive :
    ¬ machine.Throughout EventsAlive machine.init destroyThenClosed := by
  intro h
  have hrun : (machine.run machine.init destroyThenClosed).map (fun s =>
      (s.events, s.handlers.value 1)) = some ([⟨.closed, 1⟩], none) := by
    decide
  obtain ⟨s, hs, hview⟩ := Option.map_eq_some_iff.mp hrun
  obtain ⟨hevents, hdead⟩ := Prod.mk.inj hview
  have halive := (h.of_run hs) ⟨.closed, 1⟩ (by simp [hevents])
  exact halive hdead

end NatsCpp.Connection
