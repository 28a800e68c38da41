import NatsCpp.ConnectionSteps

/-!
# Whether a connected object has its registry

`callback_state_` is made once, by the default member initializer, and moves
take it away together with `conn_`. `connect` on a moved-from object makes a new
`conn_` and new `callback_handlers_` only.
-/
namespace NatsCpp.Connection

/-- The source of a running move assignment. -/
def Pc.source : Pc → Option ℕ
  | .movingConn src | .movingState src | .movingHandlers src => some src
  | _ => none

/-- The source of a move assignment is lent to it, and to nothing else. -/
structure Lending (objects : ℕ → Option Object) : Prop where
  lent : ∀ {o x src}, objects o = some x → x.pc.source = some src →
    ∃ y, objects src = some y ∧ y.lent = true
  idle : ∀ {o x}, objects o = some x → x.lent = true → x.pc = .idle
  unique : ∀ {o o' x x' src}, objects o = some x → objects o' = some x' →
    x.pc.source = some src → x'.pc.source = some src → o = o'

namespace Lending

variable {objects : ℕ → Option Object} {o src : ℕ} {x y : Object}

/-- A step that neither lends an object nor gives one back. -/
theorem set (h : Lending objects) {z : Option Object}
    (hsource : z.bind (·.pc.source) = (objects o).bind (·.pc.source))
    (hlent : z.any (·.lent) = (objects o).any (·.lent))
    (hidle : ∀ x, z = some x → x.lent = true → x.pc = .idle) :
    Lending (Function.update objects o z) := by
  have hold {k : ℕ} {w : Object} {src : ℕ} (hk : Function.update objects o z k = some w)
      (hw : w.pc.source = some src) : ∃ v, objects k = some v ∧ v.pc.source = some src := by
    by_cases heq : k = o
    · subst k
      rw [Function.update_self] at hk
      rw [hk, Option.bind_some, hw] at hsource
      exact Option.bind_eq_some_iff.mp hsource.symm
    · rw [Function.update_of_ne heq] at hk
      exact ⟨w, hk, hw⟩
  refine ⟨?_, ?_, ?_⟩
  · intro k w src hk hw
    obtain ⟨v, hv, hsrc⟩ := hold hk hw
    obtain ⟨y, hy, hlenty⟩ := h.lent hv hsrc
    by_cases heq : src = o
    · subst src
      rw [hy, Option.any_some, hlenty, Option.any_eq_true] at hlent
      obtain ⟨y', hy', hlent'⟩ := hlent
      exact ⟨y', by rw [Function.update_self, hy'], hlent'⟩
    · exact ⟨y, by rw [Function.update_of_ne heq, hy], hlenty⟩
  · intro k w hk hw
    by_cases heq : k = o
    · subst k
      rw [Function.update_self] at hk
      exact hidle w hk hw
    · rw [Function.update_of_ne heq] at hk
      exact h.idle hk hw
  · intro k k' w w' src hk hk' hw hw'
    obtain ⟨v, hv, hsrc⟩ := hold hk hw
    obtain ⟨v', hv', hsrc'⟩ := hold hk' hw'
    exact h.unique hv hv' hsrc hsrc'

/-- A step of an operation that keeps the source it has. -/
theorem proceed (h : Lending objects) (ho : objects o = some x) (hsource : y.pc.source = x.pc.source)
    (hlent : y.lent = x.lent) (hidle : y.lent = true → y.pc = .idle) :
    Lending (Function.update objects o (some y)) := by
  refine h.set ?_ ?_ ?_
  · rw [ho, Option.bind_some, Option.bind_some, hsource]
  · rw [ho, Option.any_some, Option.any_some, hlent]
  · rintro _ ⟨⟩
    exact hidle

/-- An object with an operation in progress is not lent. -/
theorem not_lent (h : Lending objects) (ho : objects o = some x) (hpc : x.pc ≠ .idle) :
    x.lent = false :=
  Bool.eq_false_iff.mpr fun hlent => hpc (h.idle ho hlent)

/-- A source is lent, so it is none of the objects that are not. -/
theorem source_ne (h : Lending objects) {k : ℕ} {w : Object} {src' : ℕ} (hk : objects k = some w)
    (hw : w.pc.source = some src') (ho : (objects o).any (·.lent) = false) : src' ≠ o := by
  rintro rfl
  obtain ⟨z, hz, hlent⟩ := h.lent hk hw
  simp [hz, hlent] at ho

/-- No move assignment has one of two idle objects as its source. -/
theorem others_idle (h : Lending objects) (ho : objects o = some x) (hsrc : objects src = some y)
    (hx : x.idle) (hy : y.idle) {k : ℕ} {w : Object} {src' : ℕ} (hk : objects k = some w)
    (hw : w.pc.source = some src') : src' ≠ o ∧ src' ≠ src :=
  ⟨h.source_ne hk hw (by simp [ho, hx.2]), h.source_ne hk hw (by simp [hsrc, hy.2])⟩

/-- No move assignment has a new object or an idle object as its source. -/
theorem others_new (h : Lending objects) (ho : objects o = none) (hsrc : objects src = some y)
    (hy : y.idle) {k : ℕ} {w : Object} {src' : ℕ} (hk : objects k = some w)
    (hw : w.pc.source = some src') : src' ≠ o ∧ src' ≠ src :=
  ⟨h.source_ne hk hw (by simp [ho]), h.source_ne hk hw (by simp [hsrc, hy.2])⟩

/-- No other move assignment has one of the two objects of a move assignment as its source. -/
theorem others_busy (h : Lending objects) (ho : objects o = some x) (hpc : x.pc ≠ .idle)
    (hsource : x.pc.source = some src) {k : ℕ} {w : Object} {src' : ℕ} (hne : k ≠ o)
    (hk : objects k = some w) (hw : w.pc.source = some src') : src' ≠ o ∧ src' ≠ src := by
  refine ⟨h.source_ne hk hw (by simp [ho, h.not_lent ho hpc]), ?_⟩
  exact fun heq => hne (h.unique hk ho (heq ▸ hw) hsource)

/-- A step of an operation in progress. -/
theorem busy (h : Lending objects) (ho : objects o = some x) (hpc : x.pc ≠ .idle)
    (hsource : y.pc.source = x.pc.source) (hlent : y.lent = x.lent) :
    Lending (Function.update objects o (some y)) := by
  refine h.proceed ho hsource hlent fun hy => ?_
  rw [hlent, h.not_lent ho hpc] at hy
  contradiction

/-- A step of a move assignment that takes a member from its source. -/
theorem take (h : Lending objects) {x' y' : Object} (ho : objects o = some x)
    (hsrc : objects src = some y) (hne : o ≠ src) (hpc : x.pc ≠ .idle)
    (hsource : x'.pc.source = x.pc.source) (hlent : x'.lent = x.lent) (hpc' : y'.pc = y.pc)
    (hlent' : y'.lent = y.lent) :
    Lending (Function.update (Function.update objects o (some x')) src (some y')) := by
  have hsrc' : Function.update objects o (some x') src = some y := by
    rw [Function.update_of_ne hne.symm, hsrc]
  refine (h.busy ho hpc hsource hlent).proceed hsrc' (by rw [hpc']) hlent' fun hy => ?_
  rw [hpc']
  exact h.idle hsrc (hlent' ▸ hy)

section Both

variable (h : Lending objects) (ho : objects o = some x) (hsrc : objects src = some y)

/-- The objects after a step that writes both objects of a move assignment. -/
theorem of_update_both {x' y' w : Object} {k : ℕ}
    (hk : Function.update (Function.update objects o (some x')) src (some y') k = some w) :
    (k = src ∧ w = y') ∨ (k = o ∧ w = x') ∨ (k ≠ src ∧ k ≠ o ∧ objects k = some w) := by
  rcases of_update_eq_some hk with hsrc | ⟨hne, hk⟩
  · exact .inl hsrc
  · rcases of_update_eq_some hk with ho | ⟨hne', hk⟩
    · exact .inr (.inl ho)
    · exact .inr (.inr ⟨hne, hne', hk⟩)

include h ho hsrc

theorem moveAssign (hx : x.idle) (hy : y.idle) :
    Lending (Function.update (Function.update objects o (some { x with pc := .movingConn src })) src
      (some { y with lent := true })) := by
  have hsource {k : ℕ} {w : Object} {src' : ℕ} (hk : objects k = some w)
      (hw : w.pc.source = some src') : src' ≠ o ∧ src' ≠ src :=
    h.others_idle ho hsrc hx hy hk hw
  have hidle : y.pc.source = none := by rw [hy.1]; rfl
  refine ⟨?_, ?_, ?_⟩
  · intro k w src' hk hw
    rcases of_update_both hk with ⟨rfl, rfl⟩ | ⟨rfl, rfl⟩ | ⟨-, -, hk⟩
    · simp [hidle] at hw
    · obtain rfl : src = src' := Option.some.inj hw
      exact ⟨_, Function.update_self _ _ _, rfl⟩
    · obtain ⟨z, hz, hlent⟩ := h.lent hk hw
      obtain ⟨hne, hne'⟩ := hsource hk hw
      exact ⟨z, by rw [Function.update_of_ne hne', Function.update_of_ne hne, hz], hlent⟩
  · intro k w hk hw
    rcases of_update_both hk with ⟨rfl, rfl⟩ | ⟨rfl, rfl⟩ | ⟨-, -, hk⟩
    · exact hy.1
    · simp [hx.2] at hw
    · exact h.idle hk hw
  · intro k k' w w' src' hk hk' hw hw'
    rcases of_update_both hk with ⟨rfl, rfl⟩ | ⟨rfl, rfl⟩ | ⟨-, -, hk⟩
    · simp [hidle] at hw
    · obtain rfl : src = src' := Option.some.inj hw
      rcases of_update_both hk' with ⟨rfl, rfl⟩ | ⟨rfl, rfl⟩ | ⟨-, -, hk'⟩
      · simp [hidle] at hw'
      · rfl
      · exact ((hsource hk' hw').2 rfl).elim
    · have hother := hsource hk hw
      rcases of_update_both hk' with ⟨rfl, rfl⟩ | ⟨rfl, rfl⟩ | ⟨-, -, hk'⟩
      · simp [hidle] at hw'
      · exact (hother.2 (Option.some.inj hw').symm).elim
      · exact h.unique hk hk' hw hw'

theorem assignHandlers (hpc : x.pc = .movingHandlers src) (handlers : Option ℕ) :
    Lending (Function.update
      (Function.update objects o (some { x with callbackHandlers := handlers, pc := .idle })) src
        (some { y with callbackHandlers := none, lent := false })) := by
  have hsource : x.pc.source = some src := by rw [hpc]; rfl
  have hidle : y.pc.source = none := by
    obtain ⟨z, hz, hlent⟩ := h.lent ho hsource
    obtain rfl := Option.some.inj (hz.symm.trans hsrc)
    rw [h.idle hsrc hlent]
    rfl
  have hold {k : ℕ} {w : Object} {src' : ℕ}
      (hk : Function.update
        (Function.update objects o (some { x with callbackHandlers := handlers, pc := .idle })) src
          (some { y with callbackHandlers := none, lent := false }) k = some w)
      (hw : w.pc.source = some src') : k ≠ o ∧ objects k = some w := by
    rcases of_update_both hk with ⟨rfl, rfl⟩ | ⟨rfl, rfl⟩ | ⟨-, hne, hk⟩
    · simp [hidle] at hw
    · simp [Pc.source] at hw
    · exact ⟨hne, hk⟩
  refine ⟨?_, ?_, ?_⟩
  · intro k w src' hk hw
    obtain ⟨hne, hk⟩ := hold hk hw
    obtain ⟨z, hz, hlent⟩ := h.lent hk hw
    obtain ⟨ho', hsrc'⟩ := h.others_busy ho (by simp [hpc]) hsource hne hk hw
    exact ⟨z, by rw [Function.update_of_ne hsrc', Function.update_of_ne ho', hz], hlent⟩
  · intro k w hk hw
    rcases of_update_both hk with ⟨rfl, rfl⟩ | ⟨rfl, rfl⟩ | ⟨-, -, hk⟩
    · simp at hw
    · rfl
    · exact h.idle hk hw
  · intro k k' w w' src' hk hk' hw hw'
    exact h.unique (hold hk hw).2 (hold hk' hw').2 hw hw'

end Both

theorem step {s t : State} {a : Action} (h : Lending s.objects) (hc : Consistent s.objects)
    (ht : Fires s a t) : Lending t.objects := by
  cases ht with
  | construct ho =>
    refine h.set ?_ ?_ ?_
    · rw [ho]; rfl
    · rw [ho]; rfl
    · rintro _ ⟨⟩
      exact fun _ => rfl
  | @moveConstruct o src y ho hsrc hy =>
    have hnew : Lending (Function.update s.objects o (some y)) := by
      refine h.set ?_ ?_ ?_
      · rw [ho, Option.bind_some, hy.1]; rfl
      · rw [ho, Option.any_some, hy.2]; rfl
      · rintro _ ⟨⟩
        exact fun _ => hy.1
    have hne : src ≠ o := by
      rintro rfl
      simp [ho] at hsrc
    exact hnew.proceed ((Function.update_of_ne hne _ _).trans hsrc) rfl rfl fun _ => hy.1
  | connect ho hx =>
    refine h.proceed ho ?_ rfl fun hlent => ?_
    · rw [hx.1]; rfl
    · simp [hx.2] at hlent
  | destroy ho hx =>
    refine h.proceed ho ?_ rfl fun hlent => ?_
    · rw [hx.1]; rfl
    · simp [hx.2] at hlent
  | moveAssign ho hsrc hx hy => exact h.moveAssign ho hsrc hx hy
  | moveAssignSelf | requestAsync | subscribe | destroySub | releaseSub | callDestroy
  | returnDestroy | freeDeleter | post | dispatch => exact h
  | endRequest =>
    rw [State.dropConn_objects]
    exact h
  | resetConn hd ho hpc =>
    rw [resetConn, State.dropConn_objects]
    exact h.busy ho (by simp [hpc]) (by rw [hpc]; rfl) rfl
  | connectThrow hd ho hpc | setHandlers hd ho hpc | dropHandlers hd ho hpc | dropState hd ho hpc =>
    exact h.busy ho (by simp [hpc]) (by rw [hpc]; rfl) rfl
  | dropConn hd ho hpc =>
    rw [dropConnMember, State.dropConn_objects]
    exact h.busy ho (by simp [hpc]) (by rw [hpc]; rfl) rfl
  | assignConn hd ho hpc hsrc =>
    rw [assignConn, State.dropConn_objects]
    exact h.take ho hsrc ((hc _ _ ho).ne (.inl hpc)) (by simp [hpc]) (by rw [hpc]; rfl) rfl rfl rfl
  | assignState hd ho hpc hsrc =>
    exact h.take ho hsrc ((hc _ _ ho).ne (.inr (.inl hpc))) (by simp [hpc]) (by rw [hpc]; rfl) rfl
      rfl rfl
  | assignHandlers hd ho hpc hsrc => exact h.assignHandlers ho hsrc hpc _
  | @ending o _ x hd ho hpc =>
    refine h.set ?_ ?_ ?_
    · rw [ho, Option.bind_some, hpc]; rfl
    · rw [ho, Option.any_some, h.not_lent ho (by simp [hpc])]; rfl
    · rintro _ ⟨⟩

end Lending

/-- The source of the move assignment that runs on an object. -/
def sourceOf (objects : ℕ → Option Object) (x : Object) : Option Object := x.pc.source.bind objects

/-- Every object satisfies a condition together with its source. -/
def All (R : Object → Option Object → Prop) (objects : ℕ → Option Object) : Prop :=
  ∀ o x, objects o = some x → R x (sourceOf objects x)

namespace All

variable {R : Object → Option Object → Prop} {objects : ℕ → Option Object} {o src : ℕ} {x y : Object}

/-- A step that changes an object which is not lent. -/
theorem set (h : All R objects) (hl : Lending objects) {z : Option Object}
    (ho : (objects o).any (·.lent) = false)
    (hz : ∀ x, z = some x → R x (sourceOf (Function.update objects o z) x)) :
    All R (Function.update objects o z) := by
  intro k w hk
  by_cases heq : k = o
  · subst k
    rw [Function.update_self] at hk
    exact hz w hk
  · rw [Function.update_of_ne heq] at hk
    have hsame : sourceOf (Function.update objects o z) w = sourceOf objects w := by
      cases hw : w.pc.source with
      | none => simp [sourceOf, hw]
      | some src =>
        have hne := hl.source_ne hk hw ho
        rw [sourceOf, sourceOf, hw, Option.bind_some, Option.bind_some, Function.update_of_ne hne]
    rw [hsame]
    exact h k w hk

/-- A step that changes both objects of a move. -/
theorem both (h : All R objects) {x' y' : Object}
    (hother : ∀ {k w src'}, k ≠ o → objects k = some w → w.pc.source = some src' →
      src' ≠ o ∧ src' ≠ src)
    (hx : R x' (sourceOf (Function.update (Function.update objects o (some x')) src (some y')) x'))
    (hy : R y' (sourceOf (Function.update (Function.update objects o (some x')) src (some y')) y')) :
    All R (Function.update (Function.update objects o (some x')) src (some y')) := by
  intro k w hk
  rcases Lending.of_update_both hk with ⟨rfl, rfl⟩ | ⟨rfl, rfl⟩ | ⟨-, hne, hkeep⟩
  · exact hy
  · exact hx
  · have hsame : sourceOf (Function.update (Function.update objects o (some x')) src (some y')) w =
        sourceOf objects w := by
      cases hw : w.pc.source with
      | none => simp [sourceOf, hw]
      | some src' =>
        obtain ⟨hne₁, hne₂⟩ := hother hne hkeep hw
        rw [sourceOf, sourceOf, hw, Option.bind_some, Option.bind_some, Function.update_of_ne hne₂,
          Function.update_of_ne hne₁]
    rw [hsame]
    exact h k w hkeep

end All

/-- After `conn_` has been moved, the source of the assignment has none. -/
def TakenFrom (x : Object) (y : Option Object) : Prop :=
  ∀ src, x.pc = .movingState src → y.bind (·.conn) = none

/-- An object that has a native connection has a registry. While a move assignment
runs this is the registry that it takes next; the destructor has destroyed it. -/
def UsableWith (x : Object) (y : Option Object) : Prop :=
  match x.pc with
  | .droppingConn => True
  | .movingState _ => x.conn ≠ none → y.bind (·.callbackState) ≠ none
  | _ => x.conn ≠ none → x.callbackState ≠ none

/-- `register_async_subscription` finds a registry in every connected object. -/
def Usable (s : State) : Prop := All UsableWith s.objects

theorem Usable.idle {s : State} (h : Usable s) {o : ℕ} {x : Object} (ho : s.objects o = some x)
    (hx : x.idle) : x.conn ≠ none → x.callbackState ≠ none := by
  have husable := h o x ho
  rwa [UsableWith, hx.1] at husable

/-- What every run keeps about move assignments. -/
structure Moves (s : State) : Prop where
  consistent : Consistent s.objects
  lending : Lending s.objects
  taken : All TakenFrom s.objects

section Step

variable {s t : State} {a : Action}

/-- An object from which nothing is taken in this state. -/
theorem takenFrom_of_ne {x : Object} {y : Option Object} (h : ∀ src, x.pc ≠ .movingState src) :
    TakenFrom x y := fun src hsrc => (h src hsrc).elim

theorem Moves.idle_source (h : Moves s) {o src : ℕ} {x y : Object} (ho : s.objects o = some x)
    (hsource : x.pc.source = some src) (hsrc : s.objects src = some y) : y.pc = .idle := by
  obtain ⟨z, hz, hlent⟩ := h.lending.lent ho hsource
  obtain rfl := Option.some.inj (hz.symm.trans hsrc)
  exact h.lending.idle hsrc hlent

theorem any_lent_of_some {objects : ℕ → Option Object} {o : ℕ} {x : Object}
    (ho : objects o = some x) (hx : x.lent = false) : (objects o).any (·.lent) = false := by
  rw [ho, Option.any_some, hx]

theorem Moves.taken_step (h : Moves s) (ht : Fires s a t) : All TakenFrom t.objects := by
  have hbusy {o : ℕ} {x : Object} (ho : s.objects o = some x) (hpc : x.pc ≠ .idle) :=
    any_lent_of_some ho (h.lending.not_lent ho hpc)
  cases ht with
  | construct ho =>
    refine h.taken.set h.lending (by rw [ho]; rfl) ?_
    rintro _ ⟨⟩
    exact takenFrom_of_ne (by simp)
  | moveConstruct ho hsrc hy =>
    refine h.taken.both (fun _ => h.lending.others_new ho hsrc hy) ?_ ?_
    · exact takenFrom_of_ne (by simp [hy.1])
    · exact takenFrom_of_ne (by simp [hy.1])
  | connect ho hx =>
    refine h.taken.set h.lending (any_lent_of_some ho hx.2) ?_
    rintro _ ⟨⟩
    exact takenFrom_of_ne (by simp)
  | destroy ho hx =>
    refine h.taken.set h.lending (any_lent_of_some ho hx.2) ?_
    rintro _ ⟨⟩
    exact takenFrom_of_ne (by simp)
  | moveAssign ho hsrc hx hy =>
    refine h.taken.both (fun _ => h.lending.others_idle ho hsrc hx hy) ?_ ?_
    · exact takenFrom_of_ne (by simp)
    · exact takenFrom_of_ne (by simp [hy.1])
  | moveAssignSelf | requestAsync | subscribe | destroySub | releaseSub | callDestroy
  | returnDestroy | freeDeleter | post | dispatch => exact h.taken
  | endRequest =>
    rw [State.dropConn_objects]
    exact h.taken
  | resetConn hd ho hpc =>
    rw [resetConn, State.dropConn_objects]
    refine h.taken.set h.lending (hbusy ho (by simp [hpc])) ?_
    rintro _ ⟨⟩
    exact takenFrom_of_ne (by simp)
  | connectThrow hd ho hpc | setHandlers hd ho hpc | dropHandlers hd ho hpc | dropState hd ho hpc =>
    refine h.taken.set h.lending (hbusy ho (by simp [hpc])) ?_
    rintro _ ⟨⟩
    exact takenFrom_of_ne (by simp)
  | dropConn hd ho hpc =>
    rw [dropConnMember, State.dropConn_objects]
    refine h.taken.set h.lending (hbusy ho (by simp [hpc])) ?_
    rintro _ ⟨⟩
    exact takenFrom_of_ne (by simp)
  | ending hd ho hpc =>
    refine h.taken.set h.lending (hbusy ho (by simp [hpc])) ?_
    rintro _ ⟨⟩
  | @assignConn o src _ x y hd ho hpc hsrc =>
    have hsource : x.pc.source = some src := by rw [hpc]; rfl
    rw [assignConn, State.dropConn_objects]
    refine h.taken.both (h.lending.others_busy ho (by simp [hpc]) hsource) ?_ ?_
    · intro src' hsrc'
      obtain rfl : src = src' := by simpa using hsrc'
      simp [sourceOf, Pc.source]
    · exact takenFrom_of_ne (by simp [h.idle_source ho hsource hsrc])
  | @assignState o src _ x y hd ho hpc hsrc =>
    have hsource : x.pc.source = some src := by rw [hpc]; rfl
    refine h.taken.both (h.lending.others_busy ho (by simp [hpc]) hsource) ?_ ?_
    · exact takenFrom_of_ne (by simp)
    · exact takenFrom_of_ne (by simp [h.idle_source ho hsource hsrc])
  | @assignHandlers o src _ x y hd ho hpc hsrc =>
    have hsource : x.pc.source = some src := by rw [hpc]; rfl
    refine h.taken.both (h.lending.others_busy ho (by simp [hpc]) hsource) ?_ ?_
    · exact takenFrom_of_ne (by simp)
    · exact takenFrom_of_ne (by simp [h.idle_source ho hsource hsrc])

/-- `natsConnection_Connect` succeeds only for objects that have a registry. -/
def ConnectsWithRegistry (s : State) (a : Action) : Prop :=
  ∀ o x h engaged, a = .advance (.object o) true → s.deleting (.object o) = none →
    s.objects o = some x → x.pc = .connecting h engaged → x.callbackState ≠ none

/-- All the other steps leave connected objects usable. -/
theorem usable_step (h : Moves s) (hu : Usable s) (hg : ConnectsWithRegistry s a)
    (ht : Fires s a t) : Usable t := by
  have hbusy {o : ℕ} {x : Object} (ho : s.objects o = some x) (hpc : x.pc ≠ .idle) :=
    any_lent_of_some ho (h.lending.not_lent ho hpc)
  cases ht with
  | construct ho =>
    refine hu.set h.lending (by rw [ho]; rfl) ?_
    rintro _ ⟨⟩
    simp [UsableWith]
  | moveConstruct ho hsrc hy =>
    refine hu.both (fun _ => h.lending.others_new ho hsrc hy) ?_ ?_
    · simpa [UsableWith, hy.1] using hu.idle hsrc hy
    · simp [UsableWith, hy.1]
  | connect ho hx | destroy ho hx =>
    have hidle := hu.idle ho hx
    refine hu.set h.lending (any_lent_of_some ho hx.2) ?_
    rintro _ ⟨⟩
    exact hidle
  | moveAssign ho hsrc hx hy =>
    have hidle := hu.idle ho hx
    refine hu.both (fun _ => h.lending.others_idle ho hsrc hx hy) ?_ ?_
    · exact hidle
    · simpa [UsableWith, hy.1] using hu.idle hsrc hy
  | moveAssignSelf | requestAsync | subscribe | destroySub | releaseSub | callDestroy
  | returnDestroy | freeDeleter | post | dispatch => exact hu
  | endRequest =>
    rw [Usable, State.dropConn_objects]
    exact hu
  | resetConn hd ho hpc =>
    have hstate := hg _ _ _ _ rfl hd ho hpc
    rw [Usable, resetConn, State.dropConn_objects]
    refine hu.set h.lending (hbusy ho (by simp [hpc])) ?_
    rintro _ ⟨⟩
    exact fun _ => hstate
  | connectThrow hd ho hpc | setHandlers hd ho hpc | dropHandlers hd ho hpc =>
    refine hu.set h.lending (hbusy ho (by simp [hpc])) ?_
    rintro _ ⟨⟩
    simpa [UsableWith, hpc] using hu _ _ ho
  | dropState hd ho hpc =>
    refine hu.set h.lending (hbusy ho (by simp [hpc])) ?_
    rintro _ ⟨⟩
    trivial
  | dropConn hd ho hpc =>
    rw [Usable, dropConnMember, State.dropConn_objects]
    refine hu.set h.lending (hbusy ho (by simp [hpc])) ?_
    rintro _ ⟨⟩
    simp [UsableWith]
  | ending hd ho hpc =>
    refine hu.set h.lending (hbusy ho (by simp [hpc])) ?_
    rintro _ ⟨⟩
  | @assignConn o src _ x y hd ho hpc hsrc =>
    have hsource : x.pc.source = some src := by rw [hpc]; rfl
    have hidle := h.idle_source ho hsource hsrc
    have hy := hu _ _ hsrc
    rw [Usable, assignConn, State.dropConn_objects]
    refine hu.both (h.lending.others_busy ho (by simp [hpc]) hsource) ?_ ?_
    · simpa [UsableWith, sourceOf, Pc.source, hidle] using hy
    · simp [UsableWith, hidle]
  | @assignState o src _ x y hd ho hpc hsrc =>
    have hsource : x.pc.source = some src := by rw [hpc]; rfl
    have hidle := h.idle_source ho hsource hsrc
    have hx := hu _ _ ho
    have hnone := h.taken _ _ ho src hpc
    rw [sourceOf, hsource, Option.bind_some, hsrc, Option.bind_some] at hnone
    refine hu.both (h.lending.others_busy ho (by simp [hpc]) hsource) ?_ ?_
    · simpa [UsableWith, sourceOf, Pc.source, hpc, hsrc] using hx
    · simp [UsableWith, hidle, hnone]
  | @assignHandlers o src _ x y hd ho hpc hsrc =>
    have hsource : x.pc.source = some src := by rw [hpc]; rfl
    have hidle := h.idle_source ho hsource hsrc
    have hx := hu _ _ ho
    have hy := hu _ _ hsrc
    refine hu.both (h.lending.others_busy ho (by simp [hpc]) hsource) ?_ ?_
    · simpa [UsableWith, hpc] using hx
    · simpa [UsableWith, hidle] using hy

/-- A `connect` that succeeds without a registry makes a connected object without one. -/
theorem connectsWithRegistry_of_usable (ht : Fires s a t) (hu : Usable t) :
    ConnectsWithRegistry s a := by
  rintro o x k engaged rfl hd ho hpc
  cases ht with
  | callDestroy hd' | returnDestroy hd' | freeDeleter hd' => simp [hd] at hd'
  | resetConn _ ho' hpc' =>
    obtain rfl := Option.some.inj (ho.symm.trans ho')
    rw [Usable, resetConn, State.dropConn_objects] at hu
    exact hu o _ (Function.update_self _ _ _) (by simp)
  | setHandlers _ ho' hpc' | assignConn _ ho' hpc' | assignState _ ho' hpc'
  | assignHandlers _ ho' hpc' | dropHandlers _ ho' hpc' | dropState _ ho' hpc'
  | dropConn _ ho' hpc' | ending _ ho' hpc' =>
    obtain rfl := Option.some.inj (ho.symm.trans ho')
    simp [hpc] at hpc'

end Step

theorem moves_invariant : machine.Invariant Machine.Free Moves := by
  constructor
  · refine ⟨?_, ⟨?_, ?_, ?_⟩, ?_⟩ <;> simp [machine, initial, Consistent, All]
  · intro s a t h _ ht
    have hfires := fires_of_step ht
    exact ⟨h.consistent.step hfires, h.lending.step h.consistent hfires, h.taken_step hfires⟩

/-- In a run every connected object has a registry, exactly if every `connect`
that succeeds was called on an object that has one. -/
theorem usable_throughout_iff (as : List Action) : machine.Throughout Usable machine.init as ↔
    machine.Respects ConnectsWithRegistry machine.init as := by
  refine moves_invariant.throughout_iff ?_ moves_invariant.init ?_ as
  · intro s a t h hu ht
    have hfires := fires_of_step ht
    exact ⟨connectsWithRegistry_of_usable hfires, fun hg => usable_step h hu hg hfires⟩
  · simp [machine, initial, Usable, All]

/-- `connect` is called on an object that has been moved from. -/
def connectMovedFrom : List Action :=
  [.construct 0, .moveConstruct 1 0, .connect 0 ∅, .advance (.object 0) true,
    .advance (.object 0) true]

/-- Then it has a native connection and no registry. -/
theorem connectMovedFrom_not_usable :
    ¬ machine.Throughout Usable machine.init connectMovedFrom := by
  intro h
  have hrun : (machine.run machine.init connectMovedFrom).map (fun s => s.objects 0) =
      some (some ⟨some 2, none, some 1, .idle, false⟩) :=
    rfl
  obtain ⟨s, hs, hview⟩ := Option.map_eq_some_iff.mp hrun
  exact (h.of_run hs).idle hview ⟨rfl, rfl⟩ (by simp) rfl

end NatsCpp.Connection
