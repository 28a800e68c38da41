import NatsCpp.SubscriptionDelivery

/-!
# The handler of a running delivery

`async_msg_callback` has only a raw pointer to its handler. The handler lives
until the last owner lets go of it: the registry, when a `release_callback` or a
failed registration erases the entry, or the local token of a failed registration.
-/
namespace NatsCpp.Subscription

/-- The step lets go of a handler for good: `release_callback` erases its entry,
or the token of a failed registration goes out of scope. -/
def FreesHandler (s : State) (b : ℕ) : Action → Prop
  | .advance w ok => LetsGo s b .registry (.advance w ok)
  | .registerThrow c => ∃ r, s.registrations c = some r ∧ r.token.addr = b
  | _ => False

/-- What is known of the closures of running deliveries on every run. -/
structure Executions (s : State) : Prop where
  fresh : ∀ {d e}, s.deliveries d = some e → e.token.ident < s.fresh
  covered : ∀ {d e}, s.deliveries d = some e →
    s.functions.value e.token.addr = some e.token.ident → e.token.addr ∈ s.callbacks ∨
      ∃ c r, s.registrations c = some r ∧ r.stage = .erased ∧ r.token.addr = e.token.addr

section Step

variable {s t : State} {a : Action}

/-- The registry keeps what it does not let go of. -/
theorem mem_callbacks_of_step {b : ℕ} (ht : step s a = some t) (hb : b ∈ s.callbacks)
    (hkeep : ¬ LetsGo s b .registry a) : b ∈ t.callbacks := by
  cases fires_of_step ht with
  | skip | enterSubscribe | returnSubscription | dropToken | constructEmpty | constructSync
  | moveMembers | beginUnsubscribe | beginDestroy | beginAssign | drained | insertCompletion
  | unsubscribed | unsubscribeThrow | endLifetime | takeRest | pruneOthers | eraseToken | deliver
  | callHandler | returnHandler | complete => exact hb
  | insertCallback => exact Finset.mem_insert_of_mem hb
  | failSubscribe => simpa [failSubscribe] using hb
  | undoInsert hc =>
    refine Finset.mem_erase.mpr ⟨?_, hb⟩
    rintro rfl
    exact hkeep ⟨rfl, _, hc, rfl⟩
  | resetSub => simpa [resetSub] using hb
  | @releaseCallback w ok x p hx hp =>
    unfold releaseCallback
    split
    · exact hb
    · rename_i hkey
      refine Finset.mem_erase.mpr ⟨?_, hb⟩
      rintro rfl
      exact hkeep ⟨x, hx, by simp [hp], hkey⟩
  | takeSub => simpa [takeSub] using hb
  | setOnCompleteCB =>
    unfold setOnCompleteCB
    split <;> exact hb

/-- A registration that has been erased waits for its exception to leave the call. -/
theorem registrations_of_step {c : ℕ} {r : Registration} (ht : step s a = some t)
    (hr : s.registrations c = some r) (hstage : r.stage = .erased) (ha : a ≠ .registerThrow c) :
    t.registrations c = some r := by
  have hupdate {d : ℕ} {q : Option Registration}
      (hd : ∀ r, s.registrations d = some r → r.stage ≠ .erased) :
      Function.update s.registrations d q c = some r := by
    have hne : c ≠ d := by
      rintro rfl
      exact hd r hr hstage
    rw [Function.update_of_ne hne, hr]
  cases fires_of_step ht with
  | skip | constructEmpty | constructSync | moveMembers | beginUnsubscribe | beginDestroy
  | beginAssign | drained | insertCompletion | unsubscribed | unsubscribeThrow | endLifetime
  | takeRest | pruneOthers | eraseToken | deliver | callHandler | returnHandler | complete => exact hr
  | insertCallback hc _ => exact hupdate (by simp [hc])
  | enterSubscribe hc _ => exact hupdate (by simp [hc])
  | returnSubscription hc _ => exact hupdate (by simp [hc])
  | failSubscribe hc => simpa [failSubscribe] using hupdate (by simp [hc])
  | undoInsert hc => exact hupdate (by simp [hc])
  | @dropToken d token hc =>
    have hne : c ≠ d := by
      rintro rfl
      exact ha rfl
    exact (Function.update_of_ne hne _ _).trans hr
  | resetSub => simpa [resetSub] using hr
  | releaseCallback =>
    unfold releaseCallback
    split <;> exact hr
  | takeSub => simpa [takeSub] using hr
  | setOnCompleteCB =>
    unfold setOnCompleteCB
    split <;> exact hr

/-- Nobody else owns what the step lets go of for good. -/
theorem value_of_freesHandler (h : WellFormed s) {b : ℕ} (ht : step s a = some t)
    (hfree : FreesHandler s b a) : t.functions.value b = none := by
  match a with
  | .advance w ok =>
    obtain ⟨x, hx, hrelease, hkey⟩ := hfree
    obtain ⟨p, -, rfl⟩ := releaseCallback_of_step hx hrelease ht
    have howners : (s.functions.owners b).erase .registry = ∅ := by
      rw [Finset.erase_eq_empty_iff, ← Finset.subset_singleton_iff]
      exact h.exclusive.key ((Wrappers.keyOf_of_some hx).trans hkey)
    simp [releaseCallback, hkey, SharedHeap.drop, SharedHeap.value_dropAll, howners]
  | .registerThrow c =>
    obtain ⟨r, hr, rfl⟩ := hfree
    obtain ⟨token, hc, rfl⟩ := dropToken_of_step ht
    obtain rfl := Option.some.inj (hc.symm.trans hr)
    have howners : (s.functions.owners token.addr).erase (.registering c) = ∅ := by
      rw [Finset.erase_eq_empty_iff, ← Finset.subset_singleton_iff]
      intro o ho
      have herased := h.exclusive.erased hc rfl
      have ho' := h.exclusive.token hc ho
      simp only [Finset.mem_insert, Finset.mem_singleton] at ho' ⊢
      rcases ho' with rfl | ho'
      · exact (herased ho).elim
      · exact ho'
    simp [dropToken, SharedHeap.drop, SharedHeap.value_dropAll, howners]

/-- A handler that the registry or a failed registration has lives on otherwise. -/
theorem value_of_not_freesHandler (h : WellFormed s) {b : ℕ} (ht : step s a = some t)
    (hb : b ∈ s.callbacks ∨
      ∃ c r, s.registrations c = some r ∧ r.stage = .erased ∧ r.token.addr = b)
    (hfree : ¬ FreesHandler s b a) : t.functions.value b = s.functions.value b := by
  rcases hb with hb | ⟨c, r, hr, hstage, rfl⟩
  · by_cases hkeep : LetsGo s b .registry a
    · -- Only a failed registration is left, and it still has its token.
      cases a with
      | advance w ok => exact (hfree hkeep).elim
      | registerErase c =>
        obtain ⟨-, r, hr, rfl⟩ := hkeep
        exact (keeps_of_step ht (h.correspondence.tokenHeld hr).1 (by simp [LetsGo])).2
      | _ => simp [LetsGo] at hkeep
    · exact (keeps_of_step ht (h.correspondence.owned hb) hkeep).2
  · have hkeep : ¬ LetsGo s r.token.addr (.registering c) a := by
      intro hgo
      cases a with
      | subscribeOk d w =>
        obtain rfl : c = d := by simpa [LetsGo] using hgo
        cases fires_of_step ht with
        | skip =>
          simp only [step, subscribeOk] at ht
          split at ht
          · rename_i hc _
            rw [hr] at hc
            rw [Option.some.inj hc] at hstage
            contradiction
          · contradiction
        | returnSubscription hc _ =>
          rw [hr] at hc
          rw [Option.some.inj hc] at hstage
          contradiction
      | registerThrow d =>
        obtain rfl : c = d := by simpa [LetsGo] using hgo
        exact hfree ⟨r, hr, rfl⟩
      | advance w ok =>
        obtain ⟨x, _, hx⟩ := hgo
        exact hx
      | _ => simp [LetsGo] at hgo
    exact (keeps_of_step ht (h.correspondence.tokenHeld hr).1 hkeep).2

/-- The object a delivery starts on, if it is alive, is in the registry. -/
theorem covered_of_deliver (h : WellFormed s) {n : ℕ} {y : Native} {k : Closure}
    (hn : s.natives n = some y) (hphase : y.phase ≠ .destroyed) (hk : y.handler = some k)
    (hvalue : s.functions.value k.addr = some k.ident) : k.addr ∈ s.callbacks := by
  have hhandler : s.natives.handlerOf n = some k := by simp [Natives.handlerOf, hn, hk]
  refine ((handlerRegistered_iff h hn hphase hk).mpr ?_).1
  intro w hw hmid
  exact (h.custody.paired hw hhandler).dead h.calls hmid hvalue

/-- The deliveries after a step: those from before, and the one it starts. -/
theorem deliveries_of_step {d : ℕ} {e : Delivery} (ht : step s a = some t)
    (he : t.deliveries d = some e) : (∃ e', s.deliveries d = some e' ∧ e'.token = e.token) ∨
      ∃ n m y, a = .deliver d n (some m) ∧ s.natives n = some y ∧ y.phase ≠ .destroyed ∧
        y.handler = some e.token ∧ t = s.setDelivery d (some e) := by
  cases fires_of_step ht with
  | skip | insertCallback | enterSubscribe | returnSubscription | undoInsert | dropToken
  | constructEmpty | constructSync | moveMembers | beginUnsubscribe | beginDestroy | beginAssign
  | drained | insertCompletion | unsubscribed | unsubscribeThrow | endLifetime | takeRest
  | pruneOthers | eraseToken | complete => exact .inl ⟨e, he, rfl⟩
  | failSubscribe => exact .inl ⟨e, by simpa [failSubscribe] using he, rfl⟩
  | resetSub => exact .inl ⟨e, by simpa [resetSub] using he, rfl⟩
  | releaseCallback =>
    unfold releaseCallback at he
    split at he
    · exact .inl ⟨e, he, rfl⟩
    · exact .inl ⟨e, he, rfl⟩
  | takeSub => exact .inl ⟨e, by simpa [takeSub] using he, rfl⟩
  | setOnCompleteCB =>
    unfold setOnCompleteCB at he
    split at he
    · exact .inl ⟨e, he, rfl⟩
    · exact .inl ⟨e, he, rfl⟩
  | @deliver d' n m y token hn hphase htoken =>
    simp only [State.setDelivery_deliveries, Function.update_apply] at he
    split_ifs at he with hd
    · subst d'
      obtain rfl := Option.some.inj he
      exact .inr ⟨n, m, y, rfl, hn, hphase, htoken, rfl⟩
    · exact .inl ⟨e, he, rfl⟩
  | @callHandler d' token hd' =>
    simp only [State.setDelivery_deliveries, Function.update_apply] at he
    split_ifs at he with hd
    · subst d'
      obtain rfl := Option.some.inj he
      exact .inl ⟨_, hd', rfl⟩
    · exact .inl ⟨e, he, rfl⟩
  | @returnHandler d' =>
    simp only [State.setDelivery_deliveries, Function.update_apply] at he
    split_ifs at he
    exact .inl ⟨e, he, rfl⟩

theorem Executions.step (hx : Executions s) (h : WellFormed s) (ht : step s a = some t) :
    Executions t := by
  have hages := ages_of_step ht
  constructor
  · intro d e he
    rcases deliveries_of_step ht he with ⟨e', he', htoken⟩ | ⟨n, m, y, -, hn, -, hk, -⟩
    · rw [← htoken]
      exact (hx.fresh he').trans_le hages.fresh_le
    · have hhandler : s.natives.handlerOf n = some e.token := by simp [Natives.handlerOf, hn, hk]
      exact (h.custody.handlerFresh hhandler).trans_le hages.fresh_le
  · intro d e he hvalue
    rcases deliveries_of_step ht he with ⟨e', he', htoken⟩ | ⟨n, m, y, -, hn, hphase, hk, rfl⟩
    · rw [← htoken] at hvalue ⊢
      have hold := hages.old hvalue (hx.fresh he')
      have halive : ¬ FreesHandler s e'.token.addr a := by
        intro hfree
        rw [value_of_freesHandler h ht hfree] at hvalue
        contradiction
      rcases hx.covered he' hold with hmem | ⟨c, r, hr, hstage, haddr⟩
      · by_cases hkeep : LetsGo s e'.token.addr .registry a
        · cases a with
          | advance w ok => exact (halive hkeep).elim
          | registerErase c =>
            obtain ⟨-, r, hr, haddr⟩ := hkeep
            obtain ⟨token, hc, rfl⟩ := undoInsert_of_step ht
            obtain rfl := Option.some.inj (hc.symm.trans hr)
            exact .inr ⟨c, ⟨token, .erased⟩, by simp [undoInsert], rfl, haddr⟩
          | _ => simp [LetsGo] at hkeep
        · exact .inl (mem_callbacks_of_step ht hmem hkeep)
      · refine .inr ⟨c, r, registrations_of_step ht hr hstage ?_, hstage, haddr⟩
        rintro rfl
        exact halive ⟨r, hr, haddr⟩
    · exact .inl (covered_of_deliver h hn hphase hk hvalue)

end Step

/-- Every handler that a delivery has entered `async_msg_callback` with is alive. -/
def HandlersAlive (s : State) : Prop :=
  ∀ d e, s.deliveries d = some e → s.functions.value e.token.addr = some e.token.ident

/-- No delivery starts in the window of a move assignment, and no handler is let
go of for good while a delivery is between entry and return with it. -/
def KeepsRunningHandlers (s : State) (a : Action) : Prop :=
  DeliversOutsideAssign s a ∧ ∀ d e, s.deliveries d = some e → ¬ FreesHandler s e.token.addr a

theorem running_invariant :
    machine.Invariant Machine.Free fun s => WellFormed s ∧ Executions s := by
  refine wellFormed_invariant.and (fun _ _ => id) ?_ ?_
  · constructor <;> simp [machine, initial]
  · intro s a t h hx _ ht
    exact hx.step h ht

theorem handlersAlive_step_iff {s t : State} {a : Action} (h : WellFormed s) (hx : Executions s)
    (halive : HandlersAlive s) (ht : step s a = some t) :
    HandlersAlive t ↔ KeepsRunningHandlers s a := by
  constructor
  · intro halive'
    constructor
    · match a with
      | .deliver d n (some m) =>
        obtain ⟨y, k, hn, hphase, hk, -, rfl⟩ := deliver_of_step ht
        have hvalue : s.functions.value k.addr = some k.ident :=
          halive' d ⟨k, false⟩ (by simp)
        have hhandler : s.natives.handlerOf n = some k := by simp [Natives.handlerOf, hn, hk]
        intro w hw hmid
        exact (h.custody.paired hw hhandler).dead h.calls hmid hvalue
      | .deliver d n none => trivial
      | .registerInsert .. | .subscribeBegin .. | .subscribeOk .. | .subscribeFail ..
      | .registerErase .. | .registerThrow .. | .construct .. | .moveConstruct .. | .unsubscribe ..
      | .destroy .. | .moveAssign .. | .drain .. | .setOnCompleteCallback .. | .advance ..
      | .callHandler .. | .returnHandler .. | .complete .. => trivial
    · intro d e he hfree
      have hdead := value_of_freesHandler h ht hfree
      cases a with
      | advance w ok =>
        obtain ⟨x, hw, hrelease, -⟩ := hfree
        obtain ⟨p, -, rfl⟩ := releaseCallback_of_step hw hrelease ht
        have he' : (releaseCallback s w { x with pc := p }).deliveries d = some e := by
          unfold releaseCallback
          split <;> exact he
        rw [halive' d e he'] at hdead
        contradiction
      | registerThrow c =>
        obtain ⟨token, hc, rfl⟩ := dropToken_of_step ht
        rw [halive' d e he] at hdead
        contradiction
      | _ => simp [FreesHandler] at hfree
  · rintro ⟨houtside, hkeep⟩ d e he
    rcases deliveries_of_step ht he with ⟨e', he', htoken⟩ | ⟨n, m, y, rfl, hn, hphase, hk, rfl⟩
    · have hvalue := halive d e' he'
      rw [← htoken, value_of_not_freesHandler h ht (hx.covered he' hvalue) (hkeep d e' he'), hvalue]
    · exact ((handlerRegistered_iff h hn hphase hk).mpr houtside).2.2

/-- In a run every handler stays alive from the entry of a delivery to its
return, exactly if no step of the run lets go of the handler of a running
delivery and no delivery starts in the window of a move assignment. -/
theorem handlersAlive_throughout_iff (as : List Action) :
    machine.Throughout HandlersAlive machine.init as ↔
      machine.Respects KeepsRunningHandlers machine.init as := by
  refine running_invariant.throughout_iff ?_ running_invariant.init ?_ as
  · intro s a t h halive ht
    exact handlersAlive_step_iff h.1 h.2 halive ht
  · intro d e he
    simp [machine, initial] at he

/-- A subscription is registered, a delivery enters its handler, and meanwhile
the wrapper is unsubscribed. -/
def unsubscribeWhileRunning : List Action :=
  [.registerInsert 0 0, .subscribeBegin 0 0, .subscribeOk 0 0, .deliver 0 0 (some 0),
    .callHandler 0, .unsubscribe 0, .advance 0 true, .advance 0 true, .advance 0 true]

/-- The handler is freed before it returns. -/
theorem unsubscribeWhileRunning_not_alive :
    ¬ machine.Throughout HandlersAlive machine.init unsubscribeWhileRunning := by
  intro h
  have hrun : (machine.run machine.init unsubscribeWhileRunning).map (fun s =>
      ((s.deliveries 0).map (·.token), s.functions.value 0)) = some (some ⟨0, 0⟩, none) := by
    decide
  obtain ⟨s, hs, hview⟩ := Option.map_eq_some_iff.mp hrun
  obtain ⟨⟨e, he, htoken⟩, hdead⟩ : (∃ e, s.deliveries 0 = some e ∧ e.token = ⟨0, 0⟩) ∧
      s.functions.value 0 = none := by simpa using hview
  have halive := (h.of_run hs) 0 e he
  rw [htoken, hdead] at halive
  contradiction

end NatsCpp.Subscription
