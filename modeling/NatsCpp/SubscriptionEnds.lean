import NatsCpp.SubscriptionClosing

/-!
# What the subscription wrappers leave behind

Every share of a function object is that of the registry, of a wrapper's map or
of a running call. So once the last wrapper has been destroyed and the last call
is over, the registry is empty, all function objects have been freed, and each
subscription that a wrapper got has been passed to `natsSubscription_Destroy`, once.
-/
namespace NatsCpp.Subscription

/-! ## Shares of function objects -/

/-- Those that the heap names as owners know about it. The share of a running
`set_on_complete_callback` is one of the facts about the maps. -/
structure Rooted (s : State) : Prop where
  registry : ∀ {b}, .registry ∈ s.functions.owners b → b ∈ s.callbacks
  registering : ∀ {c b}, .registering c ∈ s.functions.owners b →
    ∃ r, s.registrations c = some r ∧ r.token.addr = b
  completions : ∀ {b}, .completions ∈ s.functions.owners b → ∃ w, b ∈ s.wrappers.completionsOf w

theorem rooted_initial : Rooted initial := by
  constructor <;> simp [initial, SharedHeap.owners]

namespace Rooted

variable {s t : State}

/-- Calls of `register_async_subscription` go on; no share is taken. -/
theorem frame (h : Rooted s)
    (howners : ∀ {b o}, o ∈ t.functions.owners b → o ∈ s.functions.owners b)
    (hcallbacks : t.callbacks = s.callbacks)
    (hregistrations : ∀ {c r}, s.registrations c = some r →
      ∃ q, t.registrations c = some q ∧ q.token = r.token)
    (hmaps : ∀ {b w}, .completions ∈ t.functions.owners b → b ∈ s.wrappers.completionsOf w →
      ∃ v, b ∈ t.wrappers.completionsOf v) : Rooted t where
  registry hb := by
    rw [hcallbacks]
    exact h.registry (howners hb)
  registering hb := by
    obtain ⟨r, hr, hrb⟩ := h.registering (howners hb)
    obtain ⟨q, hq, htoken⟩ := hregistrations hr
    exact ⟨q, hq, by rw [htoken, hrb]⟩
  completions hb := by
    obtain ⟨w, hw⟩ := h.completions (howners hb)
    exact hmaps hb hw

/-- A step of the wrappers that takes and gives back no share. -/
theorem wrappers (h : Rooted s) (hfunctions : t.functions = s.functions)
    (hcallbacks : t.callbacks = s.callbacks) (hregistrations : t.registrations = s.registrations)
    (hmaps : ∀ {b w}, b ∈ s.wrappers.completionsOf w → ∃ v, b ∈ t.wrappers.completionsOf v) :
    Rooted t := by
  refine h.frame (fun hb => hfunctions ▸ hb) hcallbacks (fun hr => ?_) fun _ hw => hmaps hw
  exact ⟨_, by rw [hregistrations, hr], rfl⟩

/-- A wrapper keeps its map. -/
theorem updateKeep (h : Rooted s) {w : ℕ} {x x' : Wrapper} (hx : s.wrappers w = some x)
    (hfunctions : t.functions = s.functions) (hcallbacks : t.callbacks = s.callbacks)
    (hregistrations : t.registrations = s.registrations)
    (hwrappers : t.wrappers = Function.update s.wrappers w (some x'))
    (hmap : x'.completionCallbacks = x.completionCallbacks) : Rooted t := by
  refine h.wrappers hfunctions hcallbacks hregistrations fun {b v} hb => ⟨v, ?_⟩
  rw [hwrappers, Wrappers.completionsOf_update]
  split_ifs with hv
  · rw [hv, Wrappers.completionsOf_of_some hx] at hb
    rw [Option.elim_some, hmap]
    exact hb
  · exact hb

/-- A new wrapper without a map. -/
theorem updateNew (h : Rooted s) {w : ℕ} {x : Wrapper} (hw : s.wrappers w = none)
    (hfunctions : t.functions = s.functions) (hcallbacks : t.callbacks = s.callbacks)
    (hregistrations : t.registrations = s.registrations)
    (hwrappers : t.wrappers = Function.update s.wrappers w (some x)) : Rooted t := by
  refine h.wrappers hfunctions hcallbacks hregistrations fun {b v} hb => ⟨v, ?_⟩
  have hne : v ≠ w := by
    rintro rfl
    simp [Wrappers.completionsOf, hw] at hb
  rw [hwrappers, Wrappers.completionsOf_update, if_neg hne]
  exact hb

/-- Two wrappers keep their maps. -/
theorem updateTwo (h : Rooted s) {w src : ℕ} {x y x' y' : Wrapper} (hx : s.wrappers w = some x)
    (hy : s.wrappers src = some y) (hfunctions : t.functions = s.functions)
    (hcallbacks : t.callbacks = s.callbacks) (hregistrations : t.registrations = s.registrations)
    (hwrappers : t.wrappers = Function.update (Function.update s.wrappers w (some x')) src (some y'))
    (hmap : x'.completionCallbacks = x.completionCallbacks)
    (hmap' : y'.completionCallbacks = y.completionCallbacks) : Rooted t := by
  refine h.wrappers hfunctions hcallbacks hregistrations fun {b v} hb => ⟨v, ?_⟩
  rw [hwrappers, Wrappers.completionsOf_updateTwo v hx hy hmap hmap']
  exact hb

/-- The map of `src` goes to `w`, whose own map is let go of. -/
theorem moved (h : Rooted s) {w src : ℕ} {x' y y' : Wrapper} (hy : s.wrappers src = some y)
    (hne : w ≠ src)
    (howners : ∀ {b o}, o ∈ t.functions.owners b → o ∈ s.functions.owners b)
    (hgone : ∀ {b}, b ∈ s.wrappers.completionsOf w → .completions ∉ t.functions.owners b)
    (hcallbacks : t.callbacks = s.callbacks) (hregistrations : t.registrations = s.registrations)
    (hwrappers : t.wrappers = Function.update (Function.update s.wrappers w (some x')) src (some y'))
    (hmap : x'.completionCallbacks = y.completionCallbacks) : Rooted t := by
  refine h.frame howners hcallbacks (fun hr => ⟨_, by rw [hregistrations, hr], rfl⟩) ?_
  intro b v hb hv
  rw [hwrappers]
  by_cases hsrc : v = src
  · rw [hsrc, Wrappers.completionsOf_of_some hy] at hv
    refine ⟨w, ?_⟩
    rw [Wrappers.completionsOf_update, if_neg hne, Wrappers.completionsOf_update, if_pos rfl,
      Option.elim_some, hmap]
    exact hv
  · have hvw : v ≠ w := fun heq => hgone (heq ▸ hv) hb
    refine ⟨v, ?_⟩
    rw [Wrappers.completionsOf_update, if_neg hsrc, Wrappers.completionsOf_update, if_neg hvw]
    exact hv

/-- A wrapper gives back the shares of the tokens that leave its map. -/
theorem shrink (h : Rooted s) {w : ℕ} {x : Wrapper} {x' : Option Wrapper}
    (hx : s.wrappers w = some x)
    (howners : ∀ {b o}, o ∈ t.functions.owners b → o ∈ s.functions.owners b)
    (hgone : ∀ {b}, .completions ∈ t.functions.owners b → b ∈ x.completionCallbacks →
      b ∈ x'.elim ∅ (·.completionCallbacks))
    (hcallbacks : t.callbacks = s.callbacks) (hregistrations : t.registrations = s.registrations)
    (hwrappers : t.wrappers = Function.update s.wrappers w x') : Rooted t := by
  refine h.frame howners hcallbacks (fun hr => ⟨_, by rw [hregistrations, hr], rfl⟩) ?_
  intro b v hb hv
  refine ⟨v, ?_⟩
  rw [hwrappers, Wrappers.completionsOf_update]
  split_ifs with heq
  · rw [heq, Wrappers.completionsOf_of_some hx] at hv
    exact hgone hb hv
  · exact hv

theorem insertCallback (h : Rooted s) {c a : ℕ} (hc : s.registrations c = none)
    (ha : s.functions.value a = none) : Rooted (insertCallback s c a) := by
  have hfree := (SharedHeap.value_eq_none_iff _ _).mp ha
  have howners {b : ℕ} {o : Owner}
      (hb : o ∈ (Subscription.insertCallback s c a).functions.owners b) :
      (b = a ∧ (o = .registry ∨ o = .registering c)) ∨ (b ≠ a ∧ o ∈ s.functions.owners b) := by
    by_cases heq : b = a
    · subst b
      have hmem : o = .registry ∨ o = .registering c := by
        simpa [Subscription.insertCallback] using hb
      exact .inl ⟨rfl, hmem⟩
    · exact .inr ⟨heq, by simpa [Subscription.insertCallback, heq] using hb⟩
  constructor
  · intro b hb
    obtain ⟨rfl, -⟩ | ⟨-, hold⟩ := howners hb
    · exact Finset.mem_insert_self _ _
    · exact Finset.mem_insert_of_mem (h.registry hold)
  · intro d b hb
    obtain ⟨rfl, hnew⟩ | ⟨-, hold⟩ := howners hb
    · obtain rfl : d = c := by simpa using hnew
      exact ⟨_, Function.update_self _ _ _, rfl⟩
    · obtain ⟨r, hr, hrb⟩ := h.registering hold
      have hne : d ≠ c := by
        rintro rfl
        simp [hc] at hr
      exact ⟨r, (Function.update_of_ne hne _ _).trans hr, hrb⟩
  · intro b hb
    obtain ⟨-, hnew⟩ | ⟨-, hold⟩ := howners hb
    · simp at hnew
    · exact h.completions hold

/-- The call gives back its share and is over. -/
theorem dropToken (h : Rooted s) {c : ℕ} {r : Registration} (hc : s.registrations c = some r) :
    Rooted (dropToken s c r.token) := by
  have howners {b : ℕ} {o : Owner} (hb : o ∈ (Subscription.dropToken s c r.token).functions.owners b) :
      o ∈ s.functions.owners b ∧ (b = r.token.addr → o ≠ .registering c) := by
    change o ∈ (s.functions.drop r.token.addr (.registering c)).owners b at hb
    rw [SharedHeap.owners_drop] at hb
    split_ifs at hb with heq
    · exact ⟨Finset.mem_of_mem_erase hb, fun _ => Finset.ne_of_mem_erase hb⟩
    · exact ⟨hb, fun hb' => (heq hb').elim⟩
  refine ⟨fun hb => h.registry (howners hb).1, ?_, fun hb => h.completions (howners hb).1⟩
  intro d b hb
  obtain ⟨hold, hgone⟩ := howners hb
  obtain ⟨q, hq, hqb⟩ := h.registering hold
  have hne : d ≠ c := by
    rintro rfl
    obtain rfl := Option.some.inj (hc.symm.trans hq)
    exact hgone hqb.symm rfl
  exact ⟨q, (Function.update_of_ne hne _ _).trans hq, hqb⟩

theorem eraseCallback (h : Rooted s) (a : ℕ) : Rooted (s.eraseCallback a) := by
  have howners {b : ℕ} {o : Owner} (hb : o ∈ (s.eraseCallback a).functions.owners b) :
      o ∈ s.functions.owners b ∧ (b = a → o ≠ .registry) := by
    rw [State.eraseCallback_functions, SharedHeap.owners_drop] at hb
    split_ifs at hb with heq
    · exact ⟨Finset.mem_of_mem_erase hb, fun _ => Finset.ne_of_mem_erase hb⟩
    · exact ⟨hb, fun hb' => (heq hb').elim⟩
  refine ⟨?_, fun hb => h.registering (howners hb).1, fun hb => h.completions (howners hb).1⟩
  intro b hb
  have hne : b ≠ a := fun heq => (howners hb).2 heq rfl
  exact Finset.mem_erase.mpr ⟨hne, h.registry (howners hb).1⟩

theorem insertCompletion (h : Rooted s) {w a : ℕ} {x : Wrapper} (hx : s.wrappers w = some x) :
    Rooted (insertCompletion s w a x) := by
  have howners {b : ℕ} {o : Owner}
      (hb : o ∈ (Subscription.insertCompletion s w a x).functions.owners b) :
      (b = a ∧ (o = .completions ∨ o = .installing w)) ∨ (b ≠ a ∧ o ∈ s.functions.owners b) := by
    by_cases heq : b = a
    · subst b
      have hmem : o = .completions ∨ o = .installing w := by
        simpa [Subscription.insertCompletion] using hb
      exact .inl ⟨rfl, hmem⟩
    · exact .inr ⟨heq, by simpa [Subscription.insertCompletion, heq] using hb⟩
  constructor
  · intro b hb
    obtain ⟨-, hnew⟩ | ⟨-, hold⟩ := howners hb
    · simp at hnew
    · exact h.registry hold
  · intro c b hb
    obtain ⟨-, hnew⟩ | ⟨-, hold⟩ := howners hb
    · simp at hnew
    · exact h.registering hold
  · intro b hb
    obtain ⟨rfl, -⟩ | ⟨-, hold⟩ := howners hb
    · exact ⟨w, by simp [Subscription.insertCompletion]⟩
    · obtain ⟨v, hv⟩ := h.completions hold
      refine ⟨v, ?_⟩
      by_cases heq : v = w
      · rw [heq, Wrappers.completionsOf_of_some hx] at hv
        simp [Subscription.insertCompletion, heq, hv]
      · simpa [Subscription.insertCompletion, heq] using hv

/-- A registration goes on with the token that it has. -/
theorem restage (h : Rooted s) {c : ℕ} {r : Registration} (hc : s.registrations c = some r)
    (stage : Stage) (hfunctions : t.functions = s.functions) (hcallbacks : t.callbacks = s.callbacks)
    (hregistrations : t.registrations = Function.update s.registrations c (some ⟨r.token, stage⟩))
    (hwrappers : t.wrappers = s.wrappers) : Rooted t := by
  refine h.frame (fun hb => hfunctions ▸ hb) hcallbacks ?_ (fun _ hw => ⟨_, hwrappers ▸ hw⟩)
  intro d q hq
  rw [hregistrations, Function.update_apply]
  split_ifs with hd
  · subst d
    obtain rfl := Option.some.inj (hc.symm.trans hq)
    exact ⟨_, rfl, rfl⟩
  · exact ⟨q, hq, rfl⟩

theorem step {a : Action} (h : Rooted s) (hl : Calls s.wrappers) (ht : step s a = some t) :
    Rooted t := by
  have hdrop (f : SharedHeap ℕ Owner ℕ) (p : ℕ → Prop) [DecidablePred p] {v o : Owner} {b : ℕ}
      (hb : o ∈ (f.dropAll p v).owners b) : o ∈ f.owners b :=
    (SharedHeap.NoGain.refl (P := fun _ _ => True)).dropAll p v hb trivial
  cases fires_of_step ht with
  | skip => exact h
  | drained | deliver | callHandler | returnHandler | complete =>
    exact h.wrappers rfl rfl rfl fun hb => ⟨_, hb⟩
  | insertCallback hc ha => exact h.insertCallback hc ha
  | enterSubscribe hc => exact h.restage hc _ rfl rfl rfl rfl
  | failSubscribe hc =>
    exact h.restage hc .failed (by simp [failSubscribe]) (by simp [failSubscribe])
      (by simp [failSubscribe]) (by simp [failSubscribe])
  | undoInsert hc => exact (h.eraseCallback _).restage hc .erased rfl rfl rfl rfl
  | dropToken hc => exact h.dropToken hc
  | returnSubscription hc hw => exact (h.dropToken hc).updateNew hw rfl rfl rfl rfl
  | constructEmpty hw | constructSync hw => exact h.updateNew hw rfl rfl rfl rfl
  | @moveMembers w src y hw hy =>
    have hne : w ≠ src := by
      rintro rfl
      simp [hw] at hy
    refine h.moved hy hne id (fun hb => ?_) rfl rfl rfl rfl
    simp [Wrappers.completionsOf, hw] at hb
  | beginUnsubscribe hx | beginDestroy hx | unsubscribed hx | unsubscribeThrow hx =>
    exact h.updateKeep hx rfl rfl rfl rfl rfl
  | beginAssign hx hy => exact h.updateTwo hx hy rfl rfl rfl rfl rfl rfl
  | insertCompletion hx => exact h.insertCompletion hx
  | resetSub hx =>
    exact h.updateKeep hx (by simp [resetSub]) (by simp [resetSub]) (by simp [resetSub])
      (resetSub_wrappers _ _ _) rfl
  | releaseCallback hx =>
    unfold releaseCallback
    split
    · exact h.updateKeep hx rfl rfl rfl rfl rfl
    · exact (h.eraseCallback _).updateKeep hx rfl rfl rfl rfl rfl
  | takeSub hx _ hy =>
    exact h.updateTwo hx hy (by simp [takeSub]) (by simp [takeSub]) (by simp [takeSub])
      (takeSub_wrappers _ _ _ _ _) rfl rfl
  | @takeRest w src ok x y hx hpc hy =>
    have hsource := Calls.source_of_assignRest (hpc ▸ Wrappers.pcOf_of_some hx)
    refine h.moved hy (hl.source_ne hsource) (hdrop _ _) (fun {b} hb hmem => ?_) rfl rfl rfl rfl
    rw [Wrappers.completionsOf_of_some hx] at hb
    simp [takeRest, hb] at hmem
  | setOnCompleteCB hx =>
    unfold setOnCompleteCB
    split
    · exact h.updateKeep hx rfl rfl rfl rfl rfl
    · exact h.updateKeep hx rfl rfl rfl rfl rfl
  | endLifetime hx =>
    refine h.shrink hx (hdrop _ _) (fun {b} hmem hb => ?_) rfl rfl rfl
    simp [endLifetime, hb] at hmem
  | @pruneOthers w a ok x hx =>
    refine h.shrink hx (fun hb => hdrop _ _ (hdrop _ _ hb)) (fun {b} hmem hb => ?_) rfl rfl rfl
    by_cases hba : b = a
    · simpa [hba] using hb
    · simp [pruneOthers, hb, hba] at hmem
  | @eraseToken w a ok x hx =>
    refine h.shrink hx (fun hb => hdrop _ _ (hdrop _ _ hb)) (fun {b} hmem hb => ?_) rfl rfl rfl
    by_cases hba : b = a
    · simp [eraseToken, hba] at hmem
    · simpa [hba] using hb

end Rooted

/-! ## Native subscriptions -/

/-- `subscription_deleter` is the next effect, if there is a subscription to destroy. -/
def Pc.destroys : Pc → Bool
  | .unsubReset | .dtorReset | .assignSub _ => true
  | _ => false

/-- The calls of `natsSubscription_Destroy` that a step makes. -/
def destroyCalls (s : State) : Action → List ℕ
  | .advance w _ => ((s.wrappers w).filter (·.pc.destroys)).elim [] (·.sub.toList)
  | _ => []

/-- The native subscriptions that a step hands over to a wrapper. -/
def subscribed (s : State) : Action → List ℕ
  | .subscribeOk c _ =>
    match s.registrations c with
    | some ⟨_, .subscribing n⟩ => [n]
    | _ => []
  | .construct _ (some n) => [n]
  | _ => []

/-- A native subscription that is in the hands of a wrapper. -/
def activeCount (s : State) (n : ℕ) : ℕ := if s.natives.phaseOf n = some .active then 1 else 0

/-- A native subscription that is gone. -/
def destroyedCount (s : State) (n : ℕ) : ℕ := if s.natives.phaseOf n = some .destroyed then 1 else 0

section Count

variable {s t : State} {a : Action}

theorem destroyCalls_of_some {w : ℕ} {ok : Bool} {x : Wrapper} (hx : s.wrappers w = some x) :
    destroyCalls s (.advance w ok) = if x.pc.destroys then x.sub.toList else [] := by
  cases hpc : x.pc.destroys <;> simp [destroyCalls, hx, Option.filter, hpc]

/-- An effect of a wrapper that destroys its own subscription. -/
theorem phaseOf_of_destroys (hh : Holding s) {w : ℕ} {ok : Bool} {x : Wrapper}
    (hx : s.wrappers w = some x) (hpc : x.pc.destroys = true)
    (ht : step s (.advance w ok) = some t) (n : ℕ) :
    (x.sub = some n → s.natives.phaseOf n = some .active ∧ t.natives.phaseOf n = some .destroyed) ∧
      (x.sub ≠ some n → t.natives.phaseOf n = s.natives.phaseOf n) := by
  have hnatives : t.natives.phaseOf n = (s.destroyNative x.sub).natives.phaseOf n := by
    cases hp : x.pc <;> simp only [hp, Pc.destroys, Bool.false_eq_true] at hpc
    case unsubReset | dtorReset =>
      simp only [step, advance, hx, hp, Option.some.injEq] at ht
      subst t
      rfl
    case assignSub src =>
      simp only [step, advance, hx, hp] at ht
      obtain ⟨y, -, rfl⟩ := Option.map_eq_some_iff.mp ht
      rfl
  rw [hnatives, State.phaseOf_destroyNative]
  constructor
  · intro hsub
    have hactive := hh.active ((Wrappers.subOf_of_some hx).trans hsub)
    exact ⟨hactive, by rw [if_pos hsub, hactive]; rfl⟩
  · intro hsub
    rw [if_neg hsub]

/-- Other effects of a wrapper leave the phases alone. -/
theorem phaseOf_of_advance {w : ℕ} {ok : Bool} {x : Wrapper} (hx : s.wrappers w = some x)
    (hpc : x.pc.destroys = false) (ht : step s (.advance w ok) = some t) (n : ℕ) :
    t.natives.phaseOf n = s.natives.phaseOf n := by
  cases fires_of_step ht with
  | skip => rfl
  | unsubscribeThrow | endLifetime | takeRest | pruneOthers | eraseToken => rfl
  | unsubscribed => exact s.phaseOf_mapNative _ n fun _ => rfl
  | resetSub hx' hp =>
    obtain rfl := Option.some.inj (hx.symm.trans hx')
    cases hxp : x.pc <;> simp [hxp, Pc.afterReset, Pc.destroys] at hp hpc
  | releaseCallback =>
    unfold releaseCallback
    split <;> rfl
  | takeSub hx' hp =>
    obtain rfl := Option.some.inj (hx.symm.trans hx')
    simp [hp, Pc.destroys] at hpc
  | setOnCompleteCB =>
    unfold setOnCompleteCB
    split
    · exact s.phaseOf_mapNative _ n fun _ => rfl
    · rfl

/-- A step hands over no subscription, or one that was not active before. -/
theorem subscribed_cases (hh : Holding s) (ht : step s a = some t) : subscribed s a = [] ∨
    ∃ m, subscribed s a = [m] ∧ s.natives.phaseOf m ≠ some .active ∧
      s.natives.phaseOf m ≠ some .destroyed ∧
      ∀ n, t.natives.phaseOf n = if n = m then some .active else s.natives.phaseOf n := by
  cases a with
  | subscribeOk c w =>
    simp only [step, subscribeOk] at ht
    split at ht
    · rename_i token m hc hw
      obtain rfl := Option.some.inj ht
      have hm := (hh.subscribing hc).1
      obtain ⟨y, hy, -⟩ := Option.map_eq_some_iff.mp hm
      refine .inr ⟨m, by simp [subscribed, hc], by simp [hm], by simp [hm], fun n => ?_⟩
      simp [returnSubscription, dropToken, hy]
    · contradiction
  | construct w raw =>
    cases raw with
    | none => exact .inl rfl
    | some m =>
      cases hw : s.wrappers w with
      | some x => simp [step, construct, hw] at ht
      | none =>
        cases hm : s.natives m with
        | some y => simp [step, construct, hw, hm] at ht
        | none =>
          have hnone : s.natives.phaseOf m = none := by simp [Natives.phaseOf, hm]
          simp only [step, construct, hw, hm, Option.some.injEq] at ht
          subst t
          exact .inr ⟨m, rfl, by simp [hnone], by simp [hnone], fun n => by simp⟩
  | _ => exact .inl rfl

/-- Any other step makes no subscription active, and destroys none that a wrapper has. -/
theorem phaseOf_of_others (hh : Holding s) (ht : step s a = some t) (n : ℕ)
    (hadvance : ∀ w ok, a ≠ .advance w ok) (hsubscribed : subscribed s a = []) :
    (t.natives.phaseOf n = some .active ↔ s.natives.phaseOf n = some .active) ∧
      (s.natives.phaseOf n = some .destroyed → t.natives.phaseOf n = some .destroyed) := by
  have hsame (h : t.natives.phaseOf n = s.natives.phaseOf n) :
      (t.natives.phaseOf n = some .active ↔ s.natives.phaseOf n = some .active) ∧
        (s.natives.phaseOf n = some .destroyed → t.natives.phaseOf n = some .destroyed) := by
    rw [h]
    exact ⟨Iff.rfl, id⟩
  cases fires_of_step ht with
  | skip | insertCallback | undoInsert | dropToken | constructEmpty | moveMembers
  | beginUnsubscribe | beginDestroy | beginAssign | insertCompletion | deliver | callHandler
  | returnHandler => exact hsame rfl
  | drained | complete => exact hsame (s.phaseOf_mapNative _ n fun _ => rfl)
  | @enterSubscribe c m token hc hm =>
    have hnone : s.natives.phaseOf m = none := by simp [Natives.phaseOf, hm]
    by_cases heq : n = m
    · subst n
      simp [hnone, enterSubscribe]
    · exact hsame (by simp [enterSubscribe, heq])
  | @failSubscribe c m token hc =>
    have hm := (hh.subscribing hc).1
    by_cases heq : m = n
    · subst n
      simp [hm, failSubscribe, State.phaseOf_destroyNative]
    · refine hsame ?_
      simp only [failSubscribe, State.setRegistration_natives, State.phaseOf_destroyNative]
      rw [if_neg (by simpa using heq)]
  | returnSubscription hc => simp [subscribed, hc] at hsubscribed
  | constructSync => simp [subscribed] at hsubscribed
  | unsubscribed | unsubscribeThrow | resetSub | releaseCallback | endLifetime | takeSub | takeRest
  | setOnCompleteCB | pruneOthers | eraseToken => exact (hadvance _ _ rfl).elim

/-- Subscriptions become active in the hands of a wrapper, until it destroys them. -/
theorem count_step (hh : Holding s) (ht : step s a = some t) (n : ℕ) :
    activeCount t n + (destroyCalls s a).count n = activeCount s n + (subscribed s a).count n ∧
      destroyedCount s n + (destroyCalls s a).count n ≤ destroyedCount t n := by
  unfold activeCount destroyedCount
  by_cases hadvance : ∃ w ok, a = .advance w ok
  · obtain ⟨w, ok, rfl⟩ := hadvance
    cases hx : s.wrappers w with
    | none => simp [step, advance, hx] at ht
    | some x =>
      rw [destroyCalls_of_some hx]
      cases hpc : x.pc.destroys with
      | true =>
        obtain ⟨hown, hother⟩ := phaseOf_of_destroys hh hx hpc ht n
        by_cases hsub : x.sub = some n
        · simp [hsub, hown hsub, subscribed]
        · have hcount : x.sub.toList.count n = 0 := by
            simpa [List.count_eq_zero] using hsub
          simp [hother hsub, hcount, subscribed]
      | false => simp [phaseOf_of_advance hx hpc ht n, subscribed]
  · have hadvance (w : ℕ) (ok : Bool) : a ≠ .advance w ok := fun heq => hadvance ⟨w, ok, heq⟩
    have hdestroy : destroyCalls s a = [] := by
      cases a with
      | advance w ok => exact (hadvance w ok rfl).elim
      | _ => rfl
    rw [hdestroy, List.count_nil]
    obtain hempty | ⟨m, hm, hactive, hdestroyed, hphase⟩ := subscribed_cases hh ht
    · obtain ⟨hactive, hdestroyed⟩ := phaseOf_of_others hh ht n hadvance hempty
      rw [hempty, List.count_nil]
      refine ⟨by simp only [hactive], ?_⟩
      by_cases hs : s.natives.phaseOf n = some .destroyed
      · simp [hs, hdestroyed hs]
      · simp [hs]
    · rw [hm, hphase]
      by_cases heq : n = m
      · subst n
        simp [hactive, hdestroyed]
      · simp [heq, Ne.symm heq]

end Count

/-! ## The end of a run -/

/-- Nobody is left that uses a wrapper or a function object. -/
structure Ended (s : State) : Prop where
  wrappers : ∀ w, s.wrappers w = none
  registrations : ∀ c, s.registrations c = none

theorem rooted_invariant : machine.Invariant Machine.Free fun s => Pending s ∧ Rooted s := by
  refine pending_invariant.and (fun _ _ => id) rooted_initial ?_
  intro s a t hp h _ ht
  exact h.step hp.calls ht

namespace Ended

variable {s : State}

theorem destroyed (hs : Ended s) (hp : Pending s) {n : ℕ} {y : Native}
    (hn : s.natives n = some y) : y.phase = .destroyed := by
  have hphase : s.natives.phaseOf n = some y.phase := by simp [Natives.phaseOf, hn]
  cases hy : y.phase with
  | subscribing =>
    obtain ⟨c, k, hc⟩ := hp.holding.claimed (hphase.trans (congrArg some hy))
    simp [hs.registrations] at hc
  | active =>
    obtain ⟨w, hw⟩ := hp.holding.held (hphase.trans (congrArg some hy))
    simp [Wrappers.subOf, hs.wrappers] at hw
  | destroyed => rfl

theorem activeCount_eq (hs : Ended s) (hp : Pending s) (n : ℕ) : activeCount s n = 0 := by
  refine if_neg fun hn => ?_
  obtain ⟨y, hy, hphase⟩ := Option.map_eq_some_iff.mp hn
  rw [hs.destroyed hp hy] at hphase
  contradiction

theorem callbacks_eq (hs : Ended s) (hp : Pending s) : s.callbacks = ∅ := by
  refine Finset.eq_empty_of_forall_notMem fun b hb => ?_
  obtain ⟨w, hw⟩ | ⟨c, r, hc, -⟩ := hp.correspondence.cover hb
  · simp [Wrappers.keyOf, hs.wrappers] at hw
  · simp [hs.registrations] at hc

/-- Each owner would be one that is gone. -/
theorem value_functions (hs : Ended s) (hp : Pending s) (hr : Rooted s) (b : ℕ) :
    s.functions.value b = none := by
  rw [SharedHeap.value_eq_none_iff]
  refine Finset.eq_empty_of_forall_notMem fun o ho => ?_
  cases o with
  | registry => simpa [hs.callbacks_eq hp] using hr.registry ho
  | completions =>
    obtain ⟨w, hw⟩ := hr.completions ho
    simp [Wrappers.completionsOf, hs.wrappers] at hw
  | registering c =>
    obtain ⟨r, hc, -⟩ := hr.registering ho
    simp [hs.registrations] at hc
  | installing w =>
    have htoken := hp.maps.installer ho
    simp [Wrappers.tokenOf, Wrappers.pcOf, hs.wrappers] at htoken

end Ended

/-- A run that has ended leaves an empty registry and no function objects, and has
destroyed each native subscription that a wrapper got, once. -/
theorem ended_frees_all {as : List Action} {s : State}
    (hrun : machine.run machine.init as = some s) (hs : Ended s) :
    s.callbacks = ∅ ∧ (∀ b, s.functions.value b = none) ∧
    (machine.outputs destroyCalls machine.init as).Perm
      (machine.outputs subscribed machine.init as) ∧
    (machine.outputs destroyCalls machine.init as).Nodup ∧
    ∀ n y, s.natives n = some y → y.phase = .destroyed := by
  obtain ⟨hp, hr⟩ := rooted_invariant.run rooted_invariant.init hrun
  have honce (n : ℕ) : destroyedCount s n ≤ 1 := by
    unfold destroyedCount
    split_ifs <;> omega
  obtain ⟨hperm, hnodup⟩ := pending_invariant.outputs_perm
    (fun h ht n => (count_step h.holding ht n).1) (fun h ht n => (count_step h.holding ht n).2)
    pending_invariant.init hrun (fun _ => rfl) (hs.activeCount_eq hp) honce
  exact ⟨hs.callbacks_eq hp, hs.value_functions hp hr, hperm, hnodup,
    fun n y hn => hs.destroyed hp hn⟩

/-- One registration fails and one succeeds; the wrapper of the latter gets an on-complete
callback, is moved and goes. -/
def registerAndDestroy : List Action :=
  [.registerInsert 0 0, .subscribeBegin 0 0, .registerInsert 1 1, .subscribeFail 0,
    .subscribeBegin 1 1, .registerErase 0, .subscribeOk 1 0, .registerThrow 0,
    .setOnCompleteCallback 0 2, .advance 0 true, .advance 0 true, .moveConstruct 1 0,
    .destroy 0, .advance 0 true, .advance 0 true, .advance 0 true,
    .destroy 1, .advance 1 true, .advance 1 true, .advance 1 true]

theorem registerAndDestroy_frees_all :
    (machine.outputs destroyCalls machine.init registerAndDestroy).Perm [1] := by
  obtain ⟨s, hrun, hended⟩ : ∃ s, machine.run machine.init registerAndDestroy = some s ∧
      Ended s := by
    refine ⟨_, rfl, ⟨?_, ?_⟩⟩
    · rintro (_ | _ | w) <;> rfl
    · rintro (_ | _ | c) <;> rfl
  exact (ended_frees_all hrun hended).2.2.1

end NatsCpp.Subscription
