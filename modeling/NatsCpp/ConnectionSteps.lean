import NatsCpp.ConnectionModel
import Mathlib.Tactic.SplitIfs

/-!
# What one step of the connection machine can do

`Fires` lists the effects behind all actions with the facts that enable them.
The three shared pointers of the connection objects are read through `member`.
-/
namespace NatsCpp.Connection

/-- What a table has after an entry was written. -/
theorem of_update_eq_some {ι α : Type*} [DecidableEq ι] {f : ι → Option α} {i j : ι} {y x : α}
    (h : Function.update f i (some y) j = some x) : (j = i ∧ x = y) ∨ (j ≠ i ∧ f j = some x) := by
  rw [Function.update_apply] at h
  split_ifs at h with heq
  · exact .inl ⟨heq, (Option.some.inj h).symm⟩
  · exact .inr ⟨heq, h⟩

/-- The pointer that each object has in one of its members. -/
def member (f : Object → Option ℕ) (objects : ℕ → Option Object) (o : ℕ) : Option ℕ :=
  (objects o).bind f

section Member

variable {f : Object → Option ℕ} {objects : ℕ → Option Object} {o : ℕ} {x x' : Object}

theorem member_update (y : Option Object) :
    member f (Function.update objects o y) = Function.update (member f objects) o (y.bind f) := by
  ext o'
  simp only [member, Function.update_apply]
  split_ifs <;> rfl

theorem member_of_some (ho : objects o = some x) : member f objects o = f x := by
  simp [member, ho]

theorem member_of_none (ho : objects o = none) : member f objects o = none := by
  simp [member, ho]

/-- An operation that leaves the member alone. -/
theorem member_update_same (ho : objects o = some x) (hf : f x' = f x) :
    member f (Function.update objects o (some x')) = member f objects := by
  rw [member_update, Option.bind_some, hf, ← member_of_some (f := f) ho, Function.update_eq_self]

theorem member_updateTwo_same {src : ℕ} {y y' : Object} (ho : objects o = some x)
    (hsrc : objects src = some y) (hne : o ≠ src) (hx : f x' = f x) (hy : f y' = f y) :
    member f (Function.update (Function.update objects o (some x')) src (some y')) =
      member f objects := by
  have hsrc' : Function.update objects o (some x') src = some y := by
    rw [Function.update_of_ne hne.symm, hsrc]
  rw [member_update_same hsrc' hy, member_update_same ho hx]

end Member

/-- A move assignment in progress has another object as its source, and the
members that a destructor has already destroyed are null. -/
def Object.Consistent (o : ℕ) (x : Object) : Prop :=
  match x.pc with
  | .movingConn src | .movingState src | .movingHandlers src => o ≠ src
  | .droppingState => x.callbackHandlers = none
  | .droppingConn => x.callbackHandlers = none ∧ x.callbackState = none
  | .ending => x.callbackHandlers = none ∧ x.callbackState = none ∧ x.conn = none
  | .idle | .connecting .. | .settingHandlers _ | .droppingHandlers => True

def Consistent (objects : ℕ → Option Object) : Prop :=
  ∀ o x, objects o = some x → x.Consistent o

/-- The `callback_handlers` object that the local variable of a running `connect` holds. -/
def Pc.handlers : Pc → Option ℕ
  | .connecting h _ | .settingHandlers h => some h
  | _ => none

namespace State

variable (s : State) (p : Holder) (c : Option ℕ)

@[simp] theorem dropConn_objects : (s.dropConn p c).objects = s.objects := by
  cases c <;> rfl

@[simp] theorem dropConn_requests : (s.dropConn p c).requests = s.requests := by
  cases c <;> rfl

@[simp] theorem dropConn_conns : (s.dropConn p c).conns = s.conns.reset c p := by
  cases c <;> rfl

@[simp] theorem dropConn_registries : (s.dropConn p c).registries = s.registries := by
  cases c <;> rfl

@[simp] theorem dropConn_handlers : (s.dropConn p c).handlers = s.handlers := by
  cases c <;> rfl

@[simp] theorem dropConn_natives : (s.dropConn p c).natives = s.natives := by
  cases c <;> rfl

@[simp] theorem dropConn_subs : (s.dropConn p c).subs = s.subs := by
  cases c <;> rfl

@[simp] theorem dropConn_events : (s.dropConn p c).events = s.events := by
  cases c <;> rfl

@[simp] theorem dropConn_fresh : (s.dropConn p c).fresh = s.fresh := by
  cases c <;> rfl

end State

/-- What each action changes, with the facts that enable it. -/
inductive Fires (s : State) : Action → State → Prop where
  | construct {o : ℕ} (ho : s.objects o = none) : Fires s (.construct o) (defaultConstruct s o)
  | moveConstruct {o src : ℕ} {y : Object} (ho : s.objects o = none)
      (hsrc : s.objects src = some y) (hy : y.idle) :
      Fires s (.moveConstruct o src) (moveMembers s o src y)
  | connect {o : ℕ} {engaged : Finset Kind} {x : Object} (ho : s.objects o = some x) (hx : x.idle) :
      Fires s (.connect o engaged) (makeHandlers s o x engaged)
  | destroy {o : ℕ} {x : Object} (ho : s.objects o = some x) (hx : x.idle) :
      Fires s (.destroy o) (s.setObject o (some { x with pc := .droppingHandlers }))
  | moveAssignSelf {o : ℕ} : Fires s (.moveAssign o o) s
  | moveAssign {o src : ℕ} {x y : Object} (ho : s.objects o = some x)
      (hsrc : s.objects src = some y) (hx : x.idle) (hy : y.idle) (hne : o ≠ src) :
      Fires s (.moveAssign o src) ((s.setObject o (some { x with pc := .movingConn src })).setObject
        src (some { y with lent := true }))
  | requestAsync {o r n : ℕ} {x : Object} (ho : s.objects o = some x) (hconn : x.conn = some n)
      (hr : s.requests r = none) (hd : s.deleting (.request r) = none) :
      Fires s (.requestAsync o r) { s with
        conns := s.conns.share n (.request r)
        requests := Function.update s.requests r (some n) }
  | endRequest {r n : ℕ} (hr : s.requests r = some n) :
      Fires s (.endRequest r) ({ s with
        requests := Function.update s.requests r none }.dropConn (.request r) (some n))
  | subscribe {o i n r : ℕ} {x : Object} (ho : s.objects o = some x) (hconn : x.conn = some n)
      (hstate : x.callbackState = some r) (hi : s.subs i = none) :
      Fires s (.subscribe o i) { s with
        registries := s.registries.modify r (insert i)
        subs := Function.update s.subs i (some ⟨n, r, false⟩) }
  | destroySub {i : ℕ} {x : Sub} (hi : s.subs i = some x) :
      Fires s (.destroySub i) { s with
        subs := Function.update s.subs i (some { x with destroyed := true }) }
  | releaseSub {i : ℕ} {x : Sub} (hi : s.subs i = some x) (hdestroyed : x.destroyed = true) :
      Fires s (.releaseSub i) { s with registries := s.registries.modify x.registry (·.erase i) }
  | callDestroy {p : Holder} {ok : Bool} {n : ℕ} {x : Native} (hd : s.deleting p = some (.call n))
      (hn : s.natives n = some x) : Fires s (.advance p ok) (callDestroy s p n x)
  | returnDestroy {p : Holder} {ok : Bool} {n : ℕ} {x : Native} (hd : s.deleting p = some (.ret n))
      (hn : s.natives n = some x) : Fires s (.advance p ok) (returnDestroy s p n x)
  | freeDeleter {p : Holder} {ok : Bool} {n : ℕ} {x : Native} (hd : s.deleting p = some (.free n))
      (hn : s.natives n = some x) : Fires s (.advance p ok) (freeDeleter s p n x)
  | resetConn {o h : ℕ} {engaged : Finset Kind} {x : Object} (hd : s.deleting (.object o) = none)
      (ho : s.objects o = some x) (hpc : x.pc = .connecting h engaged) :
      Fires s (.advance (.object o) true) (resetConn s o x h engaged)
  | connectThrow {o h : ℕ} {engaged : Finset Kind} {x : Object} (hd : s.deleting (.object o) = none)
      (ho : s.objects o = some x) (hpc : x.pc = .connecting h engaged) :
      Fires s (.advance (.object o) false) (connectThrow s o x h)
  | setHandlers {o h : ℕ} {ok : Bool} {x : Object} (hd : s.deleting (.object o) = none)
      (ho : s.objects o = some x) (hpc : x.pc = .settingHandlers h) :
      Fires s (.advance (.object o) ok) (setHandlers s o x h)
  | assignConn {o src : ℕ} {ok : Bool} {x y : Object} (hd : s.deleting (.object o) = none)
      (ho : s.objects o = some x) (hpc : x.pc = .movingConn src) (hsrc : s.objects src = some y) :
      Fires s (.advance (.object o) ok) (assignConn s o src x y)
  | assignState {o src : ℕ} {ok : Bool} {x y : Object} (hd : s.deleting (.object o) = none)
      (ho : s.objects o = some x) (hpc : x.pc = .movingState src) (hsrc : s.objects src = some y) :
      Fires s (.advance (.object o) ok) (assignState s o src x y)
  | assignHandlers {o src : ℕ} {ok : Bool} {x y : Object} (hd : s.deleting (.object o) = none)
      (ho : s.objects o = some x) (hpc : x.pc = .movingHandlers src)
      (hsrc : s.objects src = some y) :
      Fires s (.advance (.object o) ok) (assignHandlers s o src x y)
  | dropHandlers {o : ℕ} {ok : Bool} {x : Object} (hd : s.deleting (.object o) = none)
      (ho : s.objects o = some x) (hpc : x.pc = .droppingHandlers) :
      Fires s (.advance (.object o) ok) (dropHandlers s o x)
  | dropState {o : ℕ} {ok : Bool} {x : Object} (hd : s.deleting (.object o) = none)
      (ho : s.objects o = some x) (hpc : x.pc = .droppingState) :
      Fires s (.advance (.object o) ok) (dropState s o x)
  | dropConn {o : ℕ} {ok : Bool} {x : Object} (hd : s.deleting (.object o) = none)
      (ho : s.objects o = some x) (hpc : x.pc = .droppingConn) :
      Fires s (.advance (.object o) ok) (dropConnMember s o x)
  | ending {o : ℕ} {ok : Bool} {x : Object} (hd : s.deleting (.object o) = none)
      (ho : s.objects o = some x) (hpc : x.pc = .ending) :
      Fires s (.advance (.object o) ok) (s.setObject o none)
  | post {n : ℕ} {kind : Kind} {x : Native} (hn : s.natives n = some x) (hkind : kind ∈ x.engaged)
      (hphase : x.phase ≠ .destroyed) :
      Fires s (.post n kind) { s with events := ⟨kind, x.handlers⟩ :: s.events }
  | dispatch {e : Event} (he : e ∈ s.events) :
      Fires s (.dispatch e) { s with events := s.events.erase e }

theorem fires_of_advanceObject {s t : State} {o : ℕ} {ok : Bool}
    (hd : s.deleting (.object o) = none) (ht : advanceObject s o ok = some t) :
    Fires s (.advance (.object o) ok) t := by
  simp only [advanceObject] at ht
  split at ht
  · contradiction
  · rename_i x ho
    split at ht
    · contradiction
    · rename_i h engaged hpc
      cases ok with
      | true => exact Option.some.inj ht ▸ .resetConn hd ho hpc
      | false => exact Option.some.inj ht ▸ .connectThrow hd ho hpc
    · rename_i h hpc
      exact Option.some.inj ht ▸ .setHandlers hd ho hpc
    · rename_i src hpc
      obtain ⟨y, hsrc, rfl⟩ := Option.map_eq_some_iff.mp ht
      exact .assignConn hd ho hpc hsrc
    · rename_i src hpc
      obtain ⟨y, hsrc, rfl⟩ := Option.map_eq_some_iff.mp ht
      exact .assignState hd ho hpc hsrc
    · rename_i src hpc
      obtain ⟨y, hsrc, rfl⟩ := Option.map_eq_some_iff.mp ht
      exact .assignHandlers hd ho hpc hsrc
    · rename_i hpc
      exact Option.some.inj ht ▸ .dropHandlers hd ho hpc
    · rename_i hpc
      exact Option.some.inj ht ▸ .dropState hd ho hpc
    · rename_i hpc
      exact Option.some.inj ht ▸ .dropConn hd ho hpc
    · rename_i hpc
      exact Option.some.inj ht ▸ .ending hd ho hpc

theorem fires_of_advance {s t : State} {p : Holder} {ok : Bool} (ht : advance s p ok = some t) :
    Fires s (.advance p ok) t := by
  simp only [advance] at ht
  split at ht
  · rename_i n hd
    obtain ⟨x, hn, rfl⟩ := Option.map_eq_some_iff.mp ht
    exact .callDestroy hd hn
  · rename_i n hd
    obtain ⟨x, hn, rfl⟩ := Option.map_eq_some_iff.mp ht
    exact .returnDestroy hd hn
  · rename_i n hd
    obtain ⟨x, hn, rfl⟩ := Option.map_eq_some_iff.mp ht
    exact .freeDeleter hd hn
  · rename_i o hd
    exact fires_of_advanceObject hd ht
  · contradiction

theorem fires_of_step {s t : State} {a : Action} (ht : step s a = some t) : Fires s a t := by
  cases a with
  | construct o =>
    simp only [step, construct] at ht
    split at ht
    · rename_i ho
      exact Option.some.inj ht ▸ .construct ho
    · contradiction
  | moveConstruct o src =>
    simp only [step, moveConstruct] at ht
    split at ht
    · rename_i y ho hsrc
      split at ht
      · rename_i hy
        exact Option.some.inj ht ▸ .moveConstruct ho hsrc hy
      · contradiction
    · contradiction
  | connect o engaged =>
    simp only [step, connect, enter] at ht
    split at ht
    · rename_i x ho
      split at ht
      · rename_i hx
        exact Option.some.inj ht ▸ .connect ho hx
      · contradiction
    · contradiction
  | destroy o =>
    simp only [step, destroy, enter] at ht
    split at ht
    · rename_i x ho
      split at ht
      · rename_i hx
        exact Option.some.inj ht ▸ .destroy ho hx
      · contradiction
    · contradiction
  | moveAssign o src =>
    simp only [step, moveAssign] at ht
    split at ht
    · rename_i x y ho hsrc
      split at ht
      · rename_i hidle
        split at ht
        · rename_i hself
          subst src
          exact Option.some.inj ht ▸ .moveAssignSelf
        · rename_i hne
          exact Option.some.inj ht ▸ .moveAssign ho hsrc hidle.1 hidle.2 hne
      · contradiction
    · contradiction
  | requestAsync o r =>
    simp only [step, requestAsync] at ht
    split at ht
    · rename_i n _ _ ho hr hd
      exact Option.some.inj ht ▸ .requestAsync ho rfl hr hd
    · contradiction
  | endRequest r =>
    simp only [step, endRequest] at ht
    split at ht
    · rename_i n hr
      exact Option.some.inj ht ▸ .endRequest hr
    · contradiction
  | subscribe o i =>
    simp only [step, subscribe] at ht
    split at ht
    · rename_i n r _ ho hi
      exact Option.some.inj ht ▸ .subscribe ho rfl rfl hi
    · contradiction
  | destroySub i =>
    simp only [step, destroySub] at ht
    split at ht
    · rename_i x hi
      exact Option.some.inj ht ▸ .destroySub hi
    · contradiction
  | releaseSub i =>
    simp only [step, releaseSub] at ht
    split at ht
    · rename_i n r hi
      exact Option.some.inj ht ▸ .releaseSub hi rfl
    · contradiction
  | advance p ok => exact fires_of_advance ht
  | post n kind =>
    simp only [step, post] at ht
    split at ht
    · rename_i h engaged phase hn
      split at ht
      · rename_i hkind
        exact Option.some.inj ht ▸ .post hn hkind.1 hkind.2
      · contradiction
    · contradiction
  | dispatch e =>
    simp only [step, dispatch] at ht
    split at ht
    · rename_i he
      exact Option.some.inj ht ▸ .dispatch he
    · contradiction

theorem Object.consistent_idle {o : ℕ} {x : Object} (hx : x.pc = .idle) : x.Consistent o := by
  simp [Object.Consistent, hx]

theorem Object.Consistent.ne {o src : ℕ} {x : Object} (h : x.Consistent o)
    (hpc : x.pc = .movingConn src ∨ x.pc = .movingState src ∨ x.pc = .movingHandlers src) :
    o ≠ src := by
  rcases hpc with hpc | hpc | hpc <;> simpa [Object.Consistent, hpc] using h

/-- Members of an object that are taken away from it. -/
theorem Object.Consistent.take {o : ℕ} {x x' : Object} (h : x.Consistent o) (hpc : x'.pc = x.pc)
    (hconn : x'.conn = x.conn ∨ x'.conn = none)
    (hstate : x'.callbackState = x.callbackState ∨ x'.callbackState = none)
    (hhandlers : x'.callbackHandlers = x.callbackHandlers ∨ x'.callbackHandlers = none) :
    x'.Consistent o := by
  have hnull {a b : Option ℕ} (hab : a = b ∨ a = none) (hb : b = none) : a = none := by
    rcases hab with rfl | rfl
    · exact hb
    · rfl
  unfold Object.Consistent at h ⊢
  rw [hpc]
  split at h
  · exact h
  · exact h
  · exact h
  · exact hnull hhandlers h
  · exact ⟨hnull hhandlers h.1, hnull hstate h.2⟩
  · exact ⟨hnull hhandlers h.1, hnull hstate h.2.1, hnull hconn h.2.2⟩
  all_goals trivial

namespace Consistent

variable {objects : ℕ → Option Object} {o src : ℕ} {x y : Object}

theorem update (h : Consistent objects) (hx : x.Consistent o) :
    Consistent (Function.update objects o (some x)) := by
  intro o' x' ho'
  rcases of_update_eq_some ho' with ⟨rfl, rfl⟩ | ⟨_, ho'⟩
  · exact hx
  · exact h o' x' ho'

theorem updateTwo (h : Consistent objects) (hx : x.Consistent o) (hy : y.Consistent src) :
    Consistent (Function.update (Function.update objects o (some x)) src (some y)) :=
  (h.update hx).update hy

theorem remove (h : Consistent objects) : Consistent (Function.update objects o none) := by
  intro o' x' ho'
  rw [Function.update_apply] at ho'
  split_ifs at ho'
  exact h o' x' ho'

theorem step {s t : State} {a : Action} (h : Consistent s.objects) (ht : Fires s a t) :
    Consistent t.objects := by
  cases ht with
  | construct => exact h.update (Object.consistent_idle rfl)
  | connect | destroy => exact h.update trivial
  | moveConstruct ho hsrc hy =>
    exact h.updateTwo (Object.consistent_idle hy.1) (Object.consistent_idle hy.1)
  | moveAssign ho hsrc hx hy hne => exact h.updateTwo hne (Object.consistent_idle hy.1)
  | moveAssignSelf | requestAsync | subscribe | destroySub | releaseSub | callDestroy
  | returnDestroy | freeDeleter | post | dispatch => exact h
  | endRequest =>
    rw [State.dropConn_objects]
    exact h
  | resetConn =>
    rw [resetConn, State.dropConn_objects]
    exact h.update trivial
  | connectThrow | setHandlers => exact h.update trivial
  | assignConn hd ho hpc hsrc =>
    rw [assignConn, State.dropConn_objects]
    refine h.updateTwo ((h _ _ ho).ne (.inl hpc)) ?_
    exact (h _ _ hsrc).take rfl (.inr rfl) (.inl rfl) (.inl rfl)
  | assignState hd ho hpc hsrc =>
    refine h.updateTwo ((h _ _ ho).ne (.inr (.inl hpc))) ?_
    exact (h _ _ hsrc).take rfl (.inl rfl) (.inr rfl) (.inl rfl)
  | assignHandlers hd ho hpc hsrc =>
    refine h.updateTwo trivial ?_
    exact (h _ _ hsrc).take rfl (.inl rfl) (.inl rfl) (.inr rfl)
  | dropHandlers => exact h.update rfl
  | @dropState o _ x hd ho hpc =>
    have hx : x.callbackHandlers = none := by simpa [Object.Consistent, hpc] using h o x ho
    exact h.update ⟨hx, rfl⟩
  | @dropConn o _ x hd ho hpc =>
    have hx : x.callbackHandlers = none ∧ x.callbackState = none := by
      simpa [Object.Consistent, hpc] using h o x ho
    rw [dropConnMember, State.dropConn_objects]
    exact h.update ⟨hx.1, hx.2, rfl⟩
  | ending => exact h.remove

end Consistent

end NatsCpp.Connection
