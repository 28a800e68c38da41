import NatsCpp.ConnectionHolding
import NatsCpp.ConnectionUsable

/-!
# Operations on connection objects run to their end

No operation waits for another one. In every state of a run, an object or a task
with effects left can perform the next of them, and after at most seven of its own
effects it has none left, whatever the other objects and tasks do in between.
-/
namespace NatsCpp.Connection

/-! ## Effects left -/

/-- The operation has let go of the `conn_` that the object had before. -/
def Pc.pastConn : Pc → Bool
  | .settingHandlers _ | .movingState _ | .ending => true
  | _ => false

/-- How many effects the operation may still take, with those of the deleter of
the `conn_` that it is going to let go of. -/
def Pc.rank : Pc → ℕ
  | .idle => 0
  | .connecting .. => 5
  | .settingHandlers _ => 1
  | .movingConn _ => 6
  | .movingState _ => 2
  | .movingHandlers _ => 1
  | .droppingHandlers => 7
  | .droppingState => 6
  | .droppingConn => 5
  | .ending => 1

def Deleting.rank : Deleting → ℕ
  | .call _ => 3
  | .ret _ => 2
  | .free _ => 1

theorem Pc.rank_le (pc : Pc) : pc.rank ≤ 7 := by
  cases pc <;> simp [Pc.rank]

theorem Pc.rank_le_of_pastConn {pc : Pc} (h : pc.pastConn = true) : pc.rank ≤ 2 := by
  cases pc <;> simp_all [Pc.rank, Pc.pastConn]

theorem Pc.rank_pos {pc : Pc} (h : pc ≠ .idle) : 0 < pc.rank := by
  cases pc <;> simp_all [Pc.rank]

theorem Deleting.rank_pos (d : Deleting) : 0 < d.rank := by
  cases d <;> simp [Deleting.rank]

theorem Deleting.rank_le (d : Deleting) : d.rank ≤ 3 := by
  cases d <;> simp [Deleting.rank]

/-- The rank of the operation running on an object. -/
def objectRank (objects : ℕ → Option Object) : Holder → ℕ
  | .object o => (objects o).elim 0 (·.pc.rank)
  | .request _ => 0

/-- How many effects a holder may still take. -/
def effectsLeft (s : State) (p : Holder) : ℕ :=
  (s.deleting p).elim 0 Deleting.rank + objectRank s.objects p

section Rank

variable {objects : ℕ → Option Object} {o src : ℕ} {x y x' y' : Object} {s t : State} {p q : Holder}

theorem objectRank_of_some (ho : objects o = some x) : objectRank objects (.object o) = x.pc.rank := by
  simp [objectRank, ho]

theorem objectRank_update_self (z : Option Object) :
    objectRank (Function.update objects o z) (.object o) = z.elim 0 (·.pc.rank) := by
  simp [objectRank]

theorem objectRank_update_of_ne (z : Option Object) (hp : p ≠ .object o) :
    objectRank (Function.update objects o z) p = objectRank objects p := by
  cases p with
  | object o' =>
    have hne : o' ≠ o := fun heq => hp (congrArg Holder.object heq)
    simp [objectRank, hne]
  | request r => rfl

/-- A step that leaves an object at the effect it is at. -/
theorem objectRank_keep (z : Option Object)
    (hz : z.elim 0 (·.pc.rank) = objectRank objects (.object o)) :
    objectRank (Function.update objects o z) p = objectRank objects p := by
  by_cases hp : p = .object o
  · rw [hp, objectRank_update_self, hz]
  · exact objectRank_update_of_ne z hp

theorem objectRank_source (hsrc : objects src = some y) (hy : y'.pc = y.pc) (z : Option Object)
    (hne : src ≠ o) :
    objectRank (Function.update (Function.update objects o z) src (some y')) p =
      objectRank (Function.update objects o z) p := by
  refine objectRank_keep _ ?_
  rw [objectRank_of_some ((Function.update_of_ne hne _ _).trans hsrc), Option.elim_some, hy]

theorem effectsLeft_of_deleting {d : Deleting} (hd : s.deleting p = some d) :
    effectsLeft s p = d.rank + objectRank s.objects p := by
  simp [effectsLeft, hd]

theorem effectsLeft_of_none (hd : s.deleting p = none) :
    effectsLeft s p = objectRank s.objects p := by
  simp [effectsLeft, hd]

/-- Holders that a step does not concern. -/
theorem effectsLeft_congr (hdeleting : t.deleting p = s.deleting p)
    (hobjects : objectRank t.objects p = objectRank s.objects p) :
    effectsLeft t p = effectsLeft s p := by
  rw [effectsLeft, effectsLeft, hdeleting, hobjects]

theorem deleting_dropConn_of_ne {c : Option ℕ} (hne : q ≠ p) :
    (s.dropConn p c).deleting q = s.deleting q := by
  cases c with
  | none => rfl
  | some n =>
    simp only [State.dropConn]
    split_ifs
    · exact Function.update_of_ne hne _ _
    · rfl

/-- Letting go of `conn_` leaves at most the three effects of its deleter to do. -/
theorem effectsLeft_dropConn_le {c : Option ℕ} (hd : s.deleting p = none) :
    effectsLeft (s.dropConn p c) p ≤ 3 + objectRank s.objects p := by
  rw [effectsLeft, State.dropConn_objects]
  cases c with
  | none => simp [State.dropConn, hd]
  | some n =>
    simp only [State.dropConn]
    split_ifs
    · simp [Deleting.rank]
    · simp [hd]

end Rank

/-! ## The deleter runs inside an operation -/

/-- While an object runs a deleter, its operation is past `conn_`. -/
def Midway (deleting : Holder → Option Deleting) (objects : ℕ → Option Object) : Prop :=
  ∀ o d, deleting (.object o) = some d → ∃ x, objects o = some x ∧ x.pc.pastConn = true

namespace Midway

variable {deleting : Holder → Option Deleting} {objects : ℕ → Option Object} {o src : ℕ}
  {x y y' : Object}

theorem set (h : Midway deleting objects) (z : Option Object) (hd : deleting (.object o) = none) :
    Midway deleting (Function.update objects o z) := by
  intro o' d hd'
  have hne : o' ≠ o := by
    rintro rfl
    simp [hd] at hd'
  rw [Function.update_of_ne hne]
  exact h o' d hd'

/-- An object that keeps the effect it is at. -/
theorem keep (h : Midway deleting objects) (hsrc : objects src = some y) (hy : y'.pc = y.pc) :
    Midway deleting (Function.update objects src (some y')) := by
  intro o' d hd
  obtain ⟨x, hx, hpast⟩ := h o' d hd
  by_cases heq : o' = src
  · subst o'
    obtain rfl := Option.some.inj (hsrc.symm.trans hx)
    exact ⟨y', Function.update_self _ _ _, hy ▸ hpast⟩
  · exact ⟨x, (Function.update_of_ne heq _ _).trans hx, hpast⟩

/-- An object without an operation runs no deleter. -/
theorem idle (h : Midway deleting objects) (ho : objects o = some x) (hx : x.idle) :
    deleting (.object o) = none := by
  by_contra hd
  obtain ⟨d, hd⟩ := Option.ne_none_iff_exists'.mp hd
  obtain ⟨y, hy, hpast⟩ := h o d hd
  obtain rfl := Option.some.inj (ho.symm.trans hy)
  simp [hx.1, Pc.pastConn] at hpast

theorem unused (h : Midway deleting objects) (ho : objects o = none) :
    deleting (.object o) = none := by
  by_contra hd
  obtain ⟨d, hd⟩ := Option.ne_none_iff_exists'.mp hd
  obtain ⟨y, hy, -⟩ := h o d hd
  simp [ho] at hy

/-- A deletion goes on or ends. -/
theorem proceed {p : Holder} {d : Deleting} (h : Midway deleting objects)
    (hd : deleting p = some d) (d' : Option Deleting) :
    Midway (Function.update deleting p d') objects := by
  intro o e he
  by_cases heq : Holder.object o = p
  · exact h o d (heq ▸ hd)
  · exact h o e ((Function.update_of_ne heq _ _).symm.trans he)

/-- A holder that lets go of `conn_` may get a deleter to run. -/
theorem dropConn {s : State} {p : Holder} {c : Option ℕ} (h : Midway s.deleting s.objects)
    (hp : ∀ o, p = .object o → ∃ x, s.objects o = some x ∧ x.pc.pastConn = true) :
    Midway (s.dropConn p c).deleting (s.dropConn p c).objects := by
  intro o d hd
  rw [State.dropConn_objects]
  by_cases heq : p = .object o
  · exact hp o heq
  · rw [deleting_dropConn_of_ne (Ne.symm heq)] at hd
    exact h o d hd

theorem step {s t : State} {a : Action} (h : Midway s.deleting s.objects)
    (hc : Consistent s.objects) (ht : Fires s a t) : Midway t.deleting t.objects := by
  cases ht with
  | construct ho => exact h.set _ (h.unused ho)
  | @moveConstruct o src y ho hsrc hy =>
    have hne : src ≠ o := by
      rintro rfl
      simp [ho] at hsrc
    exact (h.set _ (h.unused ho)).keep ((Function.update_of_ne hne _ _).trans hsrc) rfl
  | connect ho hx | destroy ho hx => exact h.set _ (h.idle ho hx)
  | moveAssignSelf | subscribe | destroySub | releaseSub | post | dispatch | requestAsync => exact h
  | moveAssign ho hsrc hx hy hne =>
    exact (h.set _ (h.idle ho hx)).keep ((Function.update_of_ne hne.symm _ _).trans hsrc) rfl
  | endRequest hr => exact Midway.dropConn h (by simp)
  | callDestroy hd | returnDestroy hd | freeDeleter hd => exact h.proceed hd _
  | connectThrow hd | setHandlers hd | dropHandlers hd | dropState hd | ending hd => exact h.set _ hd
  | @assignState o src _ x y hd ho hpc hsrc =>
    have hne := (hc _ _ ho).ne (.inr (.inl hpc))
    exact (h.set _ hd).keep ((Function.update_of_ne hne.symm _ _).trans hsrc) rfl
  | @assignHandlers o src _ x y hd ho hpc hsrc =>
    have hne := (hc _ _ ho).ne (.inr (.inr hpc))
    exact (h.set _ hd).keep ((Function.update_of_ne hne.symm _ _).trans hsrc) rfl
  | @resetConn o k engaged x hd ho hpc =>
    refine Midway.dropConn (h.set _ hd) ?_
    rintro o' heq
    obtain rfl := Holder.object.inj heq
    exact ⟨_, Function.update_self _ _ _, rfl⟩
  | @dropConn o _ x hd ho hpc =>
    refine Midway.dropConn (h.set _ hd) ?_
    rintro o' heq
    obtain rfl := Holder.object.inj heq
    exact ⟨_, Function.update_self _ _ _, rfl⟩
  | @assignConn o src _ x y hd ho hpc hsrc =>
    have hne := (hc _ _ ho).ne (.inl hpc)
    refine Midway.dropConn ((h.set _ hd).keep ((Function.update_of_ne hne.symm _ _).trans hsrc) rfl) ?_
    rintro o' heq
    obtain rfl := Holder.object.inj heq
    refine ⟨{ x with conn := y.conn, pc := .movingState src }, ?_, rfl⟩
    exact (Function.update_of_ne hne _ _).trans (Function.update_self _ _ _)

end Midway

/-! ## Every effect counts -/

/-- The actions that give a holder effects to perform. -/
def Action.starts (p : Holder) : Action → Prop
  | .connect o _ | .destroy o | .moveAssign o _ => p = .object o
  | .endRequest r => p = .request r
  | _ => False

/-- The effects of a holder. -/
def Action.advances (p : Holder) : Action → Bool
  | .advance q _ => decide (p = q)
  | _ => false

section Effects

variable {s t : State} {p : Holder} {a : Action}

/-- The effects of others leave a holder with those that it has to perform. -/
theorem effectsLeft_of_others (hc : Consistent s.objects) (ht : Fires s a t) (hstarts : ¬ a.starts p)
    (hadvances : a.advances p = false) : effectsLeft t p = effectsLeft s p := by
  have hother {q : Holder} {ok : Bool} (hq : (Action.advance q ok).advances p = false) : p ≠ q :=
    of_decide_eq_false hq
  cases ht with
  | construct ho =>
    exact effectsLeft_congr rfl (objectRank_keep _ (by simp [objectRank, ho, Pc.rank]))
  | @moveConstruct o src y ho hsrc hy =>
    have hne : src ≠ o := by
      rintro rfl
      simp [ho] at hsrc
    refine effectsLeft_congr rfl (.trans (objectRank_source hsrc (by rfl) _ hne) ?_)
    exact objectRank_keep _ (by simp [objectRank, ho, hy.1, Pc.rank])
  | connect | destroy => exact effectsLeft_congr rfl (objectRank_update_of_ne _ hstarts)
  | moveAssignSelf | subscribe | destroySub | releaseSub | post | dispatch | requestAsync => rfl
  | moveAssign ho hsrc hx hy hne =>
    refine effectsLeft_congr rfl (.trans (objectRank_source hsrc (by rfl) _ hne.symm) ?_)
    exact objectRank_update_of_ne _ hstarts
  | endRequest =>
    refine effectsLeft_congr ?_ (by rw [State.dropConn_objects])
    exact deleting_dropConn_of_ne hstarts
  | callDestroy | returnDestroy | freeDeleter =>
    exact effectsLeft_congr (Function.update_of_ne (hother hadvances) _ _) rfl
  | connectThrow | setHandlers | dropHandlers | dropState | ending =>
    exact effectsLeft_congr rfl (objectRank_update_of_ne _ (hother hadvances))
  | assignState hd ho hpc hsrc =>
    have hne := (hc _ _ ho).ne (.inr (.inl hpc))
    refine effectsLeft_congr rfl (.trans (objectRank_source hsrc (by rfl) _ hne.symm) ?_)
    exact objectRank_update_of_ne _ (hother hadvances)
  | assignHandlers hd ho hpc hsrc =>
    have hne := (hc _ _ ho).ne (.inr (.inr hpc))
    refine effectsLeft_congr rfl (.trans (objectRank_source hsrc (by rfl) _ hne.symm) ?_)
    exact objectRank_update_of_ne _ (hother hadvances)
  | resetConn =>
    refine effectsLeft_congr (deleting_dropConn_of_ne (hother hadvances)) ?_
    rw [resetConn, State.dropConn_objects]
    exact objectRank_update_of_ne _ (hother hadvances)
  | dropConn =>
    refine effectsLeft_congr (deleting_dropConn_of_ne (hother hadvances)) ?_
    rw [dropConnMember, State.dropConn_objects]
    exact objectRank_update_of_ne _ (hother hadvances)
  | assignConn hd ho hpc hsrc =>
    have hne := (hc _ _ ho).ne (.inl hpc)
    refine effectsLeft_congr (deleting_dropConn_of_ne (hother hadvances)) ?_
    rw [assignConn, State.dropConn_objects]
    refine .trans (objectRank_source hsrc (by rfl) _ hne.symm) ?_
    exact objectRank_update_of_ne _ (hother hadvances)

/-- An effect of an operation that lets go of no native connection. -/
theorem effectsLeft_lt_of_object {o : ℕ} {x : Object} (pc : Pc) (hd : s.deleting (.object o) = none)
    (ho : s.objects o = some x) (hdeleting : t.deleting = s.deleting)
    (ht : objectRank t.objects (.object o) = pc.rank) (hpc : pc.rank < x.pc.rank) :
    effectsLeft t (.object o) < effectsLeft s (.object o) := by
  rw [effectsLeft_of_none hd, objectRank_of_some ho, effectsLeft_of_none (hdeleting ▸ hd), ht]
  exact hpc

/-- An effect of an operation that lets go of `conn_`. -/
theorem effectsLeft_lt_of_dropConn {o : ℕ} {x : Object} {c : Option ℕ} (pc : Pc)
    (hd : s.deleting (.object o) = none) (ho : s.objects o = some x)
    (hdeleting : t.deleting = s.deleting) (ht : objectRank t.objects (.object o) = pc.rank)
    (hpc : 3 + pc.rank < x.pc.rank) :
    effectsLeft (t.dropConn (.object o) c) (.object o) < effectsLeft s (.object o) := by
  have hle : effectsLeft (t.dropConn (.object o) c) (.object o) ≤ 3 + pc.rank := by
    have hdrop := effectsLeft_dropConn_le (c := c) (hdeleting ▸ hd)
    rwa [ht] at hdrop
  rw [effectsLeft_of_none hd, objectRank_of_some ho]
  omega

/-- A holder that performs an effect has fewer of them left. -/
theorem effectsLeft_lt {ok : Bool} (hc : Consistent s.objects) (ht : Fires s (.advance p ok) t) :
    effectsLeft t p < effectsLeft s p := by
  have htwo {objects : ℕ → Option Object} {o src : ℕ} {y y' x' : Object} (hne : o ≠ src)
      (hsrc : objects src = some y) (hy : y'.pc = y.pc) :
      objectRank (Function.update (Function.update objects o (some x')) src (some y')) (.object o) =
        x'.pc.rank := by
    rw [objectRank_source hsrc hy _ hne.symm, objectRank_update_self, Option.elim_some]
  cases ht with
  | @callDestroy _ _ n x hd hn =>
    have ht : (callDestroy s p n x).deleting p = some (.ret n) := Function.update_self _ _ _
    rw [effectsLeft_of_deleting hd, effectsLeft_of_deleting ht]
    exact Nat.add_lt_add_right (by simp [Deleting.rank]) _
  | @returnDestroy _ _ n x hd hn =>
    have ht : (returnDestroy s p n x).deleting p = some (.free n) := Function.update_self _ _ _
    rw [effectsLeft_of_deleting hd, effectsLeft_of_deleting ht]
    exact Nat.add_lt_add_right (by simp [Deleting.rank]) _
  | @freeDeleter _ _ n x hd hn =>
    have ht : (freeDeleter s p n x).deleting p = none := Function.update_self _ _ _
    rw [effectsLeft_of_deleting hd, effectsLeft_of_none ht]
    exact Nat.lt_add_of_pos_left (Deleting.rank_pos _)
  | connectThrow hd ho hpc | setHandlers hd ho hpc =>
    refine effectsLeft_lt_of_object .idle hd ho rfl (objectRank_update_self _) ?_
    simp [hpc, Pc.rank]
  | dropHandlers hd ho hpc =>
    refine effectsLeft_lt_of_object .droppingState hd ho rfl (objectRank_update_self _) ?_
    simp [hpc, Pc.rank]
  | dropState hd ho hpc =>
    refine effectsLeft_lt_of_object .droppingConn hd ho rfl (objectRank_update_self _) ?_
    simp [hpc, Pc.rank]
  | ending hd ho hpc =>
    refine effectsLeft_lt_of_object .idle hd ho rfl (objectRank_update_self _) ?_
    simp [hpc, Pc.rank]
  | @assignState o src _ x y hd ho hpc hsrc =>
    have hne := (hc _ _ ho).ne (.inr (.inl hpc))
    refine effectsLeft_lt_of_object (.movingHandlers src) hd ho rfl (htwo hne hsrc rfl) ?_
    simp [hpc, Pc.rank]
  | assignHandlers hd ho hpc hsrc =>
    have hne := (hc _ _ ho).ne (.inr (.inr hpc))
    refine effectsLeft_lt_of_object .idle hd ho rfl (htwo hne hsrc rfl) ?_
    simp [hpc, Pc.rank]
  | @resetConn o h engaged x hd ho hpc =>
    refine effectsLeft_lt_of_dropConn (.settingHandlers h) hd ho rfl ?_ ?_
    · exact objectRank_update_self _
    · simp [hpc, Pc.rank]
  | dropConn hd ho hpc =>
    refine effectsLeft_lt_of_dropConn .ending hd ho rfl (objectRank_update_self _) ?_
    simp [hpc, Pc.rank]
  | @assignConn o src _ x y hd ho hpc hsrc =>
    have hne := (hc _ _ ho).ne (.inl hpc)
    refine effectsLeft_lt_of_dropConn (.movingState src) hd ho rfl (htwo hne hsrc rfl) ?_
    simp [hpc, Pc.rank]

end Effects

/-! ## Completion -/

/-- What every run keeps about operations in progress. -/
structure Progressing (s : State) : Prop where
  moves : Moves s
  holding : Holding s
  midway : Midway s.deleting s.objects

theorem progressing_invariant : machine.Invariant Machine.Free Progressing where
  init := by
    refine ⟨moves_invariant.init, holding_invariant.init, ?_⟩
    simp [Midway, machine, initial]
  step h hfree ht :=
    ⟨moves_invariant.step h.moves hfree ht, holding_invariant.step h.holding hfree ht,
      h.midway.step h.moves.consistent (fires_of_step ht)⟩

/-- A holder with effects left: a deleter to run, or an operation in progress. -/
def Working (s : State) (p : Holder) : Prop :=
  s.deleting p ≠ none ∨ ∃ o x, p = .object o ∧ s.objects o = some x ∧ x.pc ≠ .idle

theorem effectsLeft_pos {s : State} {p : Holder} (hp : Working s p) : 0 < effectsLeft s p := by
  obtain hd | ⟨o, x, rfl, ho, hpc⟩ := hp
  · obtain ⟨d, hd⟩ := Option.ne_none_iff_exists'.mp hd
    rw [effectsLeft_of_deleting hd]
    exact Nat.add_pos_left d.rank_pos _
  · rw [effectsLeft, objectRank_of_some ho]
    exact Nat.add_pos_right _ (Pc.rank_pos hpc)

namespace Progressing

variable {s : State} {p : Holder}

theorem effectsLeft_le (h : Progressing s) : effectsLeft s p ≤ 7 := by
  cases hd : s.deleting p with
  | none =>
    rw [effectsLeft_of_none hd]
    cases p with
    | object o =>
      cases ho : s.objects o with
      | none => simp [objectRank, ho]
      | some x => exact (objectRank_of_some ho).trans_le x.pc.rank_le
    | request r => simp [objectRank]
  | some d =>
    have hdeleting := d.rank_le
    rw [effectsLeft_of_deleting hd]
    cases p with
    | object o =>
      obtain ⟨x, ho, hpast⟩ := h.midway o d hd
      have hobject := Pc.rank_le_of_pastConn hpast
      rw [objectRank_of_some ho]
      omega
    | request r => simp only [objectRank]; omega

/-- Nothing that a holder needs for its next effect can be missing. -/
theorem enabled (h : Progressing s) (hp : Working s p) (ok : Bool) :
    ∃ t, step s (.advance p ok) = some t := by
  by_cases hd : s.deleting p = none
  · obtain ⟨o, x, rfl, ho, hpc⟩ := hp.resolve_left (not_not.mpr hd)
    have hsource (src : ℕ) (hsrc : x.pc.source = some src) : ∃ y, s.objects src = some y := by
      obtain ⟨y, hy, -⟩ := h.moves.lending.lent ho hsrc
      exact ⟨y, hy⟩
    simp only [step, advance, hd, advanceObject, ho]
    cases hx : x.pc with
    | idle => exact (hpc hx).elim
    | connecting => cases ok <;> exact ⟨_, rfl⟩
    | movingConn src | movingState src | movingHandlers src =>
      obtain ⟨y, hy⟩ := hsource src (by rw [hx]; rfl)
      simp [hy]
    | settingHandlers | droppingHandlers | droppingState | droppingConn | ending => exact ⟨_, rfl⟩
  · obtain ⟨d, hd⟩ := Option.ne_none_iff_exists'.mp hd
    obtain ⟨x, hx, -⟩ := h.holding.deletions.phase hd
    simp only [step, advance, hd]
    cases d with
    | call n | ret n | free n =>
      have hn : s.natives n = some x := hx
      simp [hn]

end Progressing

/-- In every state of a run, a holder with effects left can perform the next one, and
after at most seven of them its operation is over, whatever the others do in between. -/
theorem operations_complete {as : List Action} {s : State}
    (hs : machine.run machine.init as = some s) (p : Holder) :
    (Working s p → ∀ ok, ∃ t, step s (.advance p ok) = some t) ∧
    ∀ bs t, machine.run s bs = some t → (∀ a ∈ bs, ¬ a.starts p) →
      bs.countP (Action.advances p) ≤ 7 ∧ (bs.countP (Action.advances p) = 7 → ¬ Working t p) := by
  have h := progressing_invariant.run progressing_invariant.init hs
  refine ⟨fun hp ok => h.enabled hp ok, fun bs t ht hstarts => ?_⟩
  have hlt {s t : State} {a : Action} (h : Progressing s) (hcounted : a.advances p = true)
      (ht : machine.step s a = some t) : effectsLeft t p < effectsLeft s p := by
    cases a with
    | advance q ok =>
      obtain rfl : p = q := of_decide_eq_true hcounted
      exact effectsLeft_lt h.moves.consistent (fires_of_step ht)
    | _ => simp [Action.advances] at hcounted
  have hcount : bs.countP (Action.advances p) + effectsLeft t p ≤ effectsLeft s p :=
    progressing_invariant.countP_le (fun h _ => hlt h)
      (fun h ha hcounted ht =>
        (effectsLeft_of_others h.moves.consistent (fires_of_step ht) ha hcounted).le) h hstarts ht
  have hmax := h.effectsLeft_le (p := p)
  refine ⟨by omega, fun hseven hworking => ?_⟩
  have hpos := effectsLeft_pos hworking
  omega

/-- A connected object is overwritten: its own `conn_` goes first. -/
def assignOverConnected : List Action :=
  [.construct 0, .connect 0 ∅, .advance (.object 0) true, .advance (.object 0) true, .construct 1,
    .moveAssign 0 1]

theorem assignOverConnected_completes : ∃ s t, machine.run machine.init assignOverConnected = some s ∧
    machine.run s (.replicate 6 (.advance (.object 0) true)) = some t ∧
    (∃ u, step s (.advance (.object 0) true) = some u) ∧
    (List.replicate 6 (.advance (.object 0) true)).countP (Action.advances (.object 0)) ≤ 7 := by
  obtain ⟨s, hs, hrest⟩ : ∃ s, machine.run machine.init assignOverConnected = some s ∧
      ∃ t x, machine.run s (.replicate 6 (.advance (.object 0) true)) = some t ∧
        s.objects 0 = some x ∧ x.pc = .movingConn 1 := ⟨_, rfl, _, _, rfl, rfl, rfl⟩
  obtain ⟨t, x, ht, ho, hpc⟩ := hrest
  have hcomplete := operations_complete hs (.object 0)
  refine ⟨s, t, hs, ht, hcomplete.1 (.inr ⟨0, x, rfl, ho, by simp [hpc]⟩) true, ?_⟩
  exact (hcomplete.2 _ t ht fun a ha => by simp [List.eq_of_mem_replicate ha, Action.starts]).1

end NatsCpp.Connection
