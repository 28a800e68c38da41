import NatsCpp.SubscriptionRegistry

/-!
# Every native subscription has one holder

A native subscription is in the hands of the registration whose subscribe call
is running, or of the one wrapper that has it as `sub_`, or it is destroyed. So
the `unique_ptr` of a wrapper never points to a destroyed subscription, and no
live subscription is leaked or held twice. The invariant holds on every run.
-/
namespace NatsCpp.Subscription

/-- `sub_.reset()` has run in the member function under way. -/
def Pc.withoutSub : Pc → Bool
  | .unsubRelease | .dtorRelease | .dtorEnd => true
  | _ => false

structure Holding (s : State) : Prop where
  unique : ∀ {w v n}, s.wrappers.subOf w = some n → s.wrappers.subOf v = some n → w = v
  active : ∀ {w n}, s.wrappers.subOf w = some n → s.natives.phaseOf n = some .active
  held : ∀ {n}, s.natives.phaseOf n = some .active → ∃ w, s.wrappers.subOf w = some n
  reset : ∀ {w p}, s.wrappers.pcOf w = some p → p.withoutSub = true → s.wrappers.subOf w = none
  subscribing : ∀ {c k n}, s.registrations c = some ⟨k, .subscribing n⟩ →
    s.natives.phaseOf n = some .subscribing ∧ s.natives.handlerOf n = some k
  claimed : ∀ {n}, s.natives.phaseOf n = some .subscribing →
    ∃ c k, s.registrations c = some ⟨k, .subscribing n⟩

namespace Holding

variable {s t : State}

/-- Steps that concern neither the native subscriptions nor who holds them. -/
theorem frame (h : Holding s) (hsub : ∀ v, t.wrappers.subOf v = s.wrappers.subOf v)
    (hphase : ∀ n, t.natives.phaseOf n = s.natives.phaseOf n)
    (hhandler : ∀ n, t.natives.handlerOf n = s.natives.handlerOf n)
    (hreset : ∀ {v p}, t.wrappers.pcOf v = some p → p.withoutSub = true →
      t.wrappers.subOf v = none)
    (hreg : ∀ {c k n}, t.registrations c = some ⟨k, .subscribing n⟩ ↔
      s.registrations c = some ⟨k, .subscribing n⟩) : Holding t where
  unique hw hv := h.unique (hsub _ ▸ hw) (hsub _ ▸ hv)
  active hw := by
    rw [hphase]
    exact h.active (hsub _ ▸ hw)
  held hn := by
    obtain ⟨w, hw⟩ := h.held (hphase _ ▸ hn)
    exact ⟨w, (hsub w).trans hw⟩
  reset := hreset
  subscribing hc := by
    rw [hphase, hhandler]
    exact h.subscribing (hreg.mp hc)
  claimed hn := by
    obtain ⟨c, k, hc⟩ := h.claimed (hphase _ ▸ hn)
    exact ⟨c, k, hreg.mpr hc⟩

/-- A step of one wrapper that does not concern its subscription. -/
theorem updateKeep (h : Holding s) {w : ℕ} {x : Option Wrapper}
    (hwrappers : t.wrappers = Function.update s.wrappers w x)
    (hregistrations : t.registrations = s.registrations)
    (hphase : ∀ n, t.natives.phaseOf n = s.natives.phaseOf n)
    (hhandler : ∀ n, t.natives.handlerOf n = s.natives.handlerOf n)
    (hx : x.bind (·.sub) = s.wrappers.subOf w)
    (hpc : ∀ p, x.map (·.pc) = some p → p.withoutSub = true → s.wrappers.subOf w = none) :
    Holding t := by
  have hsub (v : ℕ) : t.wrappers.subOf v = s.wrappers.subOf v := by
    rw [hwrappers, Wrappers.subOf_update]
    split_ifs with hv
    · rw [hv, hx]
    · rfl
  refine h.frame hsub hphase hhandler ?_ (by rw [hregistrations])
  intro v p hv hp
  rw [hsub]
  rw [hwrappers, Wrappers.pcOf_update] at hv
  split_ifs at hv with hvw
  · rw [hvw]
    exact hpc p hv hp
  · exact h.reset hv hp

/-- A registration moves on between stages without a native subscription. -/
theorem restage (h : Holding s) {c : ℕ} {r : Option Registration}
    (hregistrations : t.registrations = Function.update s.registrations c r)
    (hold : ∀ k n, s.registrations c ≠ some ⟨k, .subscribing n⟩)
    (hnew : ∀ k n, r ≠ some ⟨k, .subscribing n⟩)
    (hwrappers : t.wrappers = s.wrappers) (hnatives : t.natives = s.natives) : Holding t := by
  refine h.frame (by simp [hwrappers]) (by simp [hnatives]) (by simp [hnatives]) ?_ ?_
  · rw [hwrappers]
    exact h.reset
  · intro d k n
    rw [hregistrations, Function.update_apply]
    split_ifs with hd
    · rw [hd]
      exact iff_of_false (hnew k n) (hold k n)
    · rfl

/-- Two registrations do not subscribe one native subscription. -/
theorem subscribing_unique (h : Holding s) (hk : Correspondence s) {c d n : ℕ} {k k' : Closure}
    (hc : s.registrations c = some ⟨k, .subscribing n⟩)
    (hd : s.registrations d = some ⟨k', .subscribing n⟩) : c = d := by
  have hhandler := (h.subscribing hc).2.symm.trans (h.subscribing hd).2
  exact hk.tokenUnique hc hd (congrArg Closure.addr (Option.some.inj hhandler))

theorem enterSubscribe (h : Holding s) {c n : ℕ} {token : Closure}
    (hc : s.registrations c = some ⟨token, .inserted⟩) (hn : s.natives n = none) :
    Holding (enterSubscribe s c n token) := by
  have hnone : s.natives.phaseOf n = none := by simp [Natives.phaseOf, hn]
  have hphase (m : ℕ) : (Subscription.enterSubscribe s c n token).natives.phaseOf m =
      if m = n then some .subscribing else s.natives.phaseOf m := by
    simp [Subscription.enterSubscribe]
  have hhandler (m : ℕ) : (Subscription.enterSubscribe s c n token).natives.handlerOf m =
      if m = n then some token else s.natives.handlerOf m := by
    simp [Subscription.enterSubscribe]
  have hregistrations (d : ℕ) : (Subscription.enterSubscribe s c n token).registrations d =
      if d = c then some ⟨token, .subscribing n⟩ else s.registrations d := by
    simp [Subscription.enterSubscribe, Function.update_apply]
  constructor
  · exact h.unique
  · intro w m hw
    have hm : s.natives.phaseOf m = some .active := h.active hw
    have hne : m ≠ n := by
      rintro rfl
      rw [hnone] at hm
      contradiction
    rw [hphase, if_neg hne, hm]
  · intro m hm
    rw [hphase] at hm
    split_ifs at hm
    · contradiction
    · exact h.held hm
  · exact h.reset
  · intro d k m hd
    rw [hregistrations] at hd
    rw [hphase, hhandler]
    split_ifs at hd
    · obtain ⟨rfl, rfl⟩ : token = k ∧ n = m := by simpa using hd
      simp
    · have hm := h.subscribing hd
      have hne : m ≠ n := by
        rintro rfl
        rw [hnone] at hm
        exact absurd hm.1 (by simp)
      rwa [if_neg hne, if_neg hne]
  · intro m hm
    rw [hphase] at hm
    split_ifs at hm with hmn
    · exact ⟨c, token, by rw [hregistrations, if_pos rfl, hmn]⟩
    · obtain ⟨d, k, hd⟩ := h.claimed hm
      have hdc : d ≠ c := by
        rintro rfl
        simp [hc] at hd
      exact ⟨d, k, by rw [hregistrations, if_neg hdc, hd]⟩

/-- The subscribe call of `c` is over, one way or the other. -/
theorem endSubscribe (h : Holding s) (hk : Correspondence s) {c n : ℕ} {token : Closure}
    {phase : Phase} (hphase' : phase ≠ .subscribing)
    (hc : s.registrations c = some ⟨token, .subscribing n⟩)
    (hphase : ∀ m, t.natives.phaseOf m = if m = n then some phase else s.natives.phaseOf m)
    (hhandler : ∀ m, t.natives.handlerOf m = s.natives.handlerOf m)
    (hreg : ∀ {d k m}, t.registrations d = some ⟨k, .subscribing m⟩ ↔
      d ≠ c ∧ s.registrations d = some ⟨k, .subscribing m⟩)
    (hunique : ∀ {w v m}, t.wrappers.subOf w = some m → t.wrappers.subOf v = some m → w = v)
    (hactive : ∀ {w m}, t.wrappers.subOf w = some m → t.natives.phaseOf m = some .active)
    (hheld : ∀ {m}, t.natives.phaseOf m = some .active → ∃ w, t.wrappers.subOf w = some m)
    (hreset : ∀ {w p}, t.wrappers.pcOf w = some p → p.withoutSub = true →
      t.wrappers.subOf w = none) : Holding t where
  unique := hunique
  active := hactive
  held := hheld
  reset := hreset
  subscribing := by
    intro d k m hd
    obtain ⟨hne, hd⟩ := hreg.mp hd
    have hmn : m ≠ n := by
      rintro rfl
      exact hne (h.subscribing_unique hk hd hc)
    rw [hphase, hhandler, if_neg hmn]
    exact h.subscribing hd
  claimed := by
    intro m hm
    rw [hphase] at hm
    split_ifs at hm with hmn
    · exact (hphase' (Option.some.inj hm)).elim
    · obtain ⟨d, k, hd⟩ := h.claimed hm
      have hdc : d ≠ c := by
        rintro rfl
        rw [hc] at hd
        obtain ⟨rfl, rfl⟩ : token = k ∧ n = m := by simpa using hd
        exact hmn rfl
      exact ⟨d, k, hreg.mpr ⟨hdc, hd⟩⟩

theorem returnSubscription (h : Holding s) (hk : Correspondence s) {c w n : ℕ} {token : Closure}
    (hc : s.registrations c = some ⟨token, .subscribing n⟩) (hw : s.wrappers w = none) :
    Holding (returnSubscription s c w n token) := by
  have hphase (m : ℕ) : (Subscription.returnSubscription s c w n token).natives.phaseOf m =
      if m = n then some .active else s.natives.phaseOf m := by
    have hn := (h.subscribing hc).1
    obtain ⟨y, hy, -⟩ := Option.map_eq_some_iff.mp hn
    simp [Subscription.returnSubscription, dropToken, hy]
  have hsub (v : ℕ) : (Subscription.returnSubscription s c w n token).wrappers.subOf v =
      if v = w then some n else s.wrappers.subOf v := by
    simp [Subscription.returnSubscription, dropToken]
  have hfree (v : ℕ) : s.wrappers.subOf v ≠ some n := by
    intro hv
    have hn := (h.subscribing hc).1
    rw [h.active hv] at hn
    contradiction
  have hnone : s.wrappers.subOf w = none := by simp [Wrappers.subOf, hw]
  refine h.endSubscribe hk (by simp) hc hphase ?_ ?_ ?_ ?_ ?_ ?_
  · intro m
    simp only [Subscription.returnSubscription, State.setWrapper_natives]
    rw [State.handlerOf_mapNative]
    · rfl
    · exact fun _ => rfl
  · intro d k m
    by_cases hd : d = c <;> simp [Subscription.returnSubscription, dropToken, hd]
  · intro v v' m hv hv'
    rw [hsub] at hv hv'
    split_ifs at hv hv' with h1 h2 h2
    · exact h1.trans h2.symm
    · exact (hfree v' (hv.symm ▸ hv')).elim
    · exact (hfree v (hv'.symm ▸ hv)).elim
    · exact h.unique hv hv'
  · intro v m hv
    rw [hsub] at hv
    rw [hphase]
    split_ifs at hv with hvw
    · rw [if_pos (Option.some.inj hv).symm]
    · rw [h.active hv]
      split_ifs <;> rfl
  · intro m hm
    rw [hphase] at hm
    split_ifs at hm with hmn
    · exact ⟨w, by rw [hsub, if_pos rfl, hmn]⟩
    · obtain ⟨v, hv⟩ := h.held hm
      have hne : v ≠ w := by
        rintro rfl
        rw [hnone] at hv
        contradiction
      exact ⟨v, by rw [hsub, if_neg hne, hv]⟩
  · intro v p hv hp
    rw [hsub]
    simp only [Subscription.returnSubscription, State.setWrapper_wrappers,
      Wrappers.pcOf_update] at hv
    split_ifs at hv ⊢ with hvw
    · obtain rfl : Pc.idle = p := by simpa using hv
      contradiction
    · exact h.reset hv hp

theorem failSubscribe (h : Holding s) (hk : Correspondence s) {c n : ℕ} {token : Closure}
    (hc : s.registrations c = some ⟨token, .subscribing n⟩) :
    Holding (failSubscribe s c n token) := by
  have hn := (h.subscribing hc).1
  have hphase (m : ℕ) : (Subscription.failSubscribe s c n token).natives.phaseOf m =
      if m = n then some .destroyed else s.natives.phaseOf m := by
    simp only [Subscription.failSubscribe, State.setRegistration_natives,
      State.phaseOf_destroyNative, Option.some.injEq, eq_comm (a := n)]
    split_ifs with hmn
    · rw [hmn, hn]
      rfl
    · rfl
  have hwrappers : (Subscription.failSubscribe s c n token).wrappers = s.wrappers := by
    simp [Subscription.failSubscribe]
  have hne {m : ℕ} (hm : s.natives.phaseOf m = some .active) : m ≠ n := by
    rintro rfl
    rw [hn] at hm
    contradiction
  refine h.endSubscribe hk (by simp) hc hphase ?_ ?_ ?_ ?_ ?_ ?_
  · simp [Subscription.failSubscribe]
  · intro d k m
    by_cases hd : d = c <;> simp [Subscription.failSubscribe, hd]
  · rw [hwrappers]
    exact h.unique
  · intro v m hv
    rw [hwrappers] at hv
    rw [hphase, if_neg (hne (h.active hv))]
    exact h.active hv
  · intro m hm
    rw [hphase] at hm
    split_ifs at hm
    · contradiction
    · rw [hwrappers]
      exact h.held hm
  · rw [hwrappers]
    exact h.reset

theorem constructSync (h : Holding s) {w n : ℕ} (hw : s.wrappers w = none)
    (hn : s.natives n = none) :
    Holding ((s.setNative n ⟨.active, none, false, none, false⟩).setWrapper w
      (some ⟨some n, none, ∅, .idle, false⟩)) := by
  have hnone : s.natives.phaseOf n = none := by simp [Natives.phaseOf, hn]
  have hnew {m : ℕ} {phase : Phase} (hm : s.natives.phaseOf m = some phase) : m ≠ n := by
    rintro rfl
    rw [hnone] at hm
    contradiction
  have hfree : s.wrappers.subOf w = none := by simp [Wrappers.subOf, hw]
  constructor <;> simp only [State.setWrapper_wrappers, State.setWrapper_natives,
    State.setWrapper_registrations, State.setNative_natives, State.setNative_registrations,
    State.setNative_wrappers, Wrappers.subOf_update, Wrappers.pcOf_update, Natives.phaseOf_update,
    Natives.handlerOf_update, Option.bind_some, Option.map_some]
  · intro v v' m hv hv'
    split_ifs at hv hv' with h1 h2 h2
    · exact h1.trans h2.symm
    · exact (hnew (h.active hv') (Option.some.inj hv).symm).elim
    · exact (hnew (h.active hv) (Option.some.inj hv').symm).elim
    · exact h.unique hv hv'
  · intro v m hv
    split_ifs at hv with hvw
    · rw [if_pos (Option.some.inj hv).symm]
    · rw [if_neg (hnew (h.active hv))]
      exact h.active hv
  · intro m hm
    split_ifs at hm with hmn
    · exact ⟨w, by rw [if_pos rfl, hmn]⟩
    · obtain ⟨v, hv⟩ := h.held hm
      have hne : v ≠ w := by
        rintro rfl
        rw [hfree] at hv
        contradiction
      exact ⟨v, by rw [if_neg hne, hv]⟩
  · intro v p hv hp
    split_ifs at hv ⊢ with hvw
    · obtain rfl : Pc.idle = p := by simpa using hv
      contradiction
    · exact h.reset hv hp
  · intro c k m hc
    have hm := h.subscribing hc
    rwa [if_neg (hnew hm.1), if_neg (hnew hm.1)]
  · intro m hm
    split_ifs at hm
    · contradiction
    · exact h.claimed hm

/-- A wrapper destroys its subscription and is left without one. -/
theorem resetSub (h : Holding s) {w : ℕ} {x : Wrapper} {p : Pc} (hx : s.wrappers w = some x) :
    Holding (resetSub s w { x with pc := p }) := by
  have hw : s.wrappers.subOf w = x.sub := Wrappers.subOf_of_some hx
  have hphase (m : ℕ) : (Subscription.resetSub s w { x with pc := p }).natives.phaseOf m =
      if x.sub = some m then (s.natives.phaseOf m).map fun _ => .destroyed
      else s.natives.phaseOf m := by
    simp only [Subscription.resetSub, State.setWrapper_natives, State.phaseOf_destroyNative]
  have hsub (v : ℕ) : (Subscription.resetSub s w { x with pc := p }).wrappers.subOf v =
      if v = w then none else s.wrappers.subOf v := by
    simp [Subscription.resetSub]
  -- Only the own subscription is destroyed, and it was active.
  have hne {m : ℕ} {phase : Phase} (hm : s.natives.phaseOf m = some phase)
      (hphase' : phase ≠ .active) : x.sub ≠ some m := by
    intro hxm
    rw [h.active (hw.trans hxm)] at hm
    exact hphase' (Option.some.inj hm).symm
  constructor
  · intro v v' m hv hv'
    rw [hsub] at hv hv'
    split_ifs at hv hv'
    exact h.unique hv hv'
  · intro v m hv
    rw [hsub] at hv
    split_ifs at hv with hvw
    rw [hphase, if_neg fun hxm => hvw (h.unique hv (hw.trans hxm))]
    exact h.active hv
  · intro m hm
    rw [hphase] at hm
    split_ifs at hm with hxm
    · rw [Option.map_eq_some_iff] at hm
      obtain ⟨_, _, hdestroyed⟩ := hm
      contradiction
    · obtain ⟨v, hv⟩ := h.held hm
      have hvw : v ≠ w := by
        rintro rfl
        exact hxm (hw.symm.trans hv)
      exact ⟨v, by rw [hsub, if_neg hvw, hv]⟩
  · intro v q hv hq
    rw [hsub]
    simp only [resetSub_wrappers, Wrappers.pcOf_update] at hv
    split_ifs at hv ⊢
    · rfl
    · exact h.reset hv hq
  · intro c k m hc
    have hm : s.natives.phaseOf m = some .subscribing ∧ s.natives.handlerOf m = some k :=
      h.subscribing (by simpa [Subscription.resetSub] using hc)
    rw [hphase, if_neg (hne hm.1 (by simp))]
    simpa [Subscription.resetSub] using hm
  · intro m hm
    rw [hphase] at hm
    split_ifs at hm
    · rw [Option.map_eq_some_iff] at hm
      obtain ⟨_, _, hdestroyed⟩ := hm
      contradiction
    · simpa [Subscription.resetSub] using h.claimed hm

/-- A subscription travels from `src` to a wrapper without one. -/
theorem moved (h : Holding s) (w src : ℕ) (hnone : s.wrappers.subOf w = none)
    (hsub : ∀ v, t.wrappers.subOf v =
      if v = src then none else if v = w then s.wrappers.subOf src else s.wrappers.subOf v)
    (hnatives : t.natives = s.natives) (hregistrations : t.registrations = s.registrations)
    (hreset : ∀ {v p}, t.wrappers.pcOf v = some p → p.withoutSub = true →
      t.wrappers.subOf v = none) : Holding t := by
  constructor
  · intro v v' n hv hv'
    rw [hsub] at hv hv'
    split_ifs at hv hv' with h1 h2 h3 h4 h5
    · exact h2.trans h4.symm
    · exact (h3 (h.unique hv' hv)).elim
    · exact (h1 (h.unique hv hv')).elim
    · exact h.unique hv hv'
  · intro v n hv
    rw [hsub] at hv
    rw [hnatives]
    split_ifs at hv
    · exact h.active hv
    · exact h.active hv
  · intro n hn
    rw [hnatives] at hn
    obtain ⟨v, hv⟩ := h.held hn
    by_cases hsrc : v = src
    · have hne : w ≠ src := by
        rintro rfl
        rw [← hsrc, hv] at hnone
        contradiction
      exact ⟨w, by rw [hsub, if_neg hne, if_pos rfl, ← hsrc, hv]⟩
    · have hne : v ≠ w := by
        rintro rfl
        rw [hv] at hnone
        contradiction
      exact ⟨v, by rw [hsub, if_neg hsrc, if_neg hne, hv]⟩
  · exact hreset
  · rw [hregistrations, hnatives]
    exact h.subscribing
  · rw [hregistrations, hnatives]
    exact h.claimed

theorem moveMembers (h : Holding s) {w src : ℕ} {y : Wrapper} (hw : s.wrappers w = none)
    (hy : s.wrappers src = some y) (hidle : y.idle) : Holding (moveMembers s w src y) := by
  have hnone : s.wrappers.subOf w = none := by simp [Wrappers.subOf, hw]
  have hsrc : s.wrappers.subOf src = y.sub := Wrappers.subOf_of_some hy
  refine h.moved w src hnone ?_ rfl rfl ?_
  · intro v
    simp [Subscription.moveMembers, Wrapper.emptied, hsrc]
  · intro v p hv hp
    simp only [Subscription.moveMembers, Wrapper.emptied, State.setWrapper_wrappers,
      Wrappers.pcOf_update, Wrappers.subOf_update, Option.map_some, Option.bind_some] at hv ⊢
    split_ifs at hv ⊢
    · rfl
    · obtain rfl : y.pc = p := Option.some.inj hv
      rw [hidle.1] at hp
      contradiction
    · exact h.reset hv hp

theorem takeSub (h : Holding s) (hl : Calls s.wrappers) {w src : ℕ} {x y : Wrapper}
    (hx : s.wrappers w = some x) (hpc : x.pc = .assignSub src) (hy : s.wrappers src = some y) :
    Holding (takeSub s w src { x with pc := .assignRest src } y) := by
  have hsource : s.wrappers.sourceOf w = some src := by
    simp [Wrappers.sourceOf_of_some hx, hpc, Pc.source]
  have hne : src ≠ w := (hl.source_ne hsource).symm
  have hsrc : s.wrappers.subOf src = y.sub := Wrappers.subOf_of_some hy
  have hreset : Holding (Subscription.resetSub s w { x with pc := .assignRest src }) :=
    h.resetSub hx
  refine hreset.moved w src ?_ ?_ ?_ ?_ ?_
  · simp [Subscription.resetSub]
  · intro v
    simp [Subscription.takeSub, Subscription.resetSub, hne, hsrc]
    split_ifs <;> rfl
  · simp [Subscription.takeSub, Subscription.resetSub]
  · simp [Subscription.takeSub, Subscription.resetSub]
  · intro v p hv hp
    simp only [takeSub_wrappers, Wrappers.pcOf_update, Wrappers.subOf_update, Option.map_some, Option.bind_some] at hv ⊢
    split_ifs at hv ⊢
    · rfl
    · obtain rfl : Pc.assignRest src = p := Option.some.inj hv
      contradiction
    · exact h.reset hv hp

theorem releaseCallback (h : Holding s) {w : ℕ} {x : Wrapper} {p : Pc}
    (hx : s.wrappers w = some x) (hp : x.pc.afterRelease = some p) :
    Holding (releaseCallback s w { x with pc := p }) := by
  have hnatives : (Subscription.releaseCallback s w { x with pc := p }).natives = s.natives := by
    unfold Subscription.releaseCallback
    split <;> rfl
  refine h.updateKeep (releaseCallback_wrappers _ _ _) ?_ (by simp [hnatives])
    (by simp [hnatives]) (Wrappers.subOf_of_some hx).symm ?_
  · unfold Subscription.releaseCallback
    split <;> rfl
  · intro q hq hreset
    obtain rfl : p = q := Option.some.inj hq
    apply h.reset (Wrappers.pcOf_of_some hx)
    cases hpc : x.pc <;> simp only [hpc, Pc.afterRelease, Option.some.injEq, reduceCtorEq] at hp
    all_goals
      subst hp
      first | rfl | contradiction

/-- Two wrappers change without their subscriptions. -/
theorem updateTwo (h : Holding s) {w src : ℕ} {x y x' y' : Wrapper} (hx : s.wrappers w = some x)
    (hy : s.wrappers src = some y)
    (hwrappers : t.wrappers = Function.update (Function.update s.wrappers w (some x')) src (some y'))
    (hregistrations : t.registrations = s.registrations) (hnatives : t.natives = s.natives)
    (hxsub : x'.sub = x.sub) (hysub : y'.sub = y.sub) (hxpc : x'.pc.withoutSub = false)
    (hypc : y'.pc.withoutSub = false) : Holding t := by
  refine h.frame ?_ (by simp [hnatives]) (by simp [hnatives]) ?_ (by simp [hregistrations])
  · intro v
    rw [hwrappers, Wrappers.subOf_updateTwo v hx hy hxsub hysub]
  · intro v p hv hp
    simp only [hwrappers, Wrappers.pcOf_update, Wrappers.subOf_update, Option.map_some] at hv ⊢
    split_ifs at hv ⊢
    · rw [Option.some.inj hv, hp] at hypc
      contradiction
    · rw [Option.some.inj hv, hp] at hxpc
      contradiction
    · exact h.reset hv hp

end Holding

theorem holding_initial : Holding initial := by
  constructor <;> simp [initial, Wrappers.subOf, Wrappers.pcOf, Natives.phaseOf]

theorem Holding.step {s t : State} {a : Action} (h : Holding s) (hl : Calls s.wrappers)
    (hk : Correspondence s) (ht : step s a = some t) : Holding t := by
  cases fires_of_step ht with
  | skip => exact h
  | insertCallback hc _ => exact h.restage rfl (by simp [hc]) (by simp) rfl rfl
  | enterSubscribe hc hn => exact h.enterSubscribe hc hn
  | returnSubscription hc hw => exact h.returnSubscription hk hc hw
  | failSubscribe hc => exact h.failSubscribe hk hc
  | undoInsert hc => exact h.restage rfl (by simp [hc]) (by simp) rfl rfl
  | dropToken hc => exact h.restage rfl (by simp [hc]) (by simp) rfl rfl
  | @constructEmpty w hw =>
    have hnone : s.wrappers.subOf w = none := by simp [Wrappers.subOf, hw]
    exact h.updateKeep rfl rfl (fun _ => rfl) (fun _ => rfl) hnone.symm fun _ _ _ => hnone
  | constructSync hw hn => exact h.constructSync hw hn
  | moveMembers hw hy hidle => exact h.moveMembers hw hy hidle
  | beginUnsubscribe hx _ =>
    exact h.updateKeep rfl rfl (fun _ => rfl) (fun _ => rfl) (Wrappers.subOf_of_some hx).symm
      (by simp [Pc.withoutSub])
  | beginDestroy hx _ =>
    exact h.updateKeep rfl rfl (fun _ => rfl) (fun _ => rfl) (Wrappers.subOf_of_some hx).symm
      (by simp [Pc.withoutSub])
  | beginAssign hx hy _ hidle' _ =>
    exact h.updateTwo hx hy rfl rfl rfl rfl rfl rfl (by rw [hidle'.1]; rfl)
  | drained =>
    exact h.frame (fun _ => rfl) (fun m => s.phaseOf_mapNative _ m fun _ => rfl)
      (fun m => s.handlerOf_mapNative _ m fun _ => rfl) h.reset Iff.rfl
  | insertCompletion hx _ _ _ =>
    exact h.updateKeep rfl rfl (fun _ => rfl) (fun _ => rfl) (Wrappers.subOf_of_some hx).symm
      (by simp [Pc.withoutSub])
  | unsubscribed hx _ _ =>
    exact h.updateKeep rfl rfl (fun m => s.phaseOf_mapNative _ m fun _ => rfl)
      (fun m => s.handlerOf_mapNative _ m fun _ => rfl) (Wrappers.subOf_of_some hx).symm
      (by simp [Pc.withoutSub])
  | unsubscribeThrow hx _ =>
    exact h.updateKeep rfl rfl (fun _ => rfl) (fun _ => rfl) (Wrappers.subOf_of_some hx).symm
      (by simp [Pc.withoutSub])
  | resetSub hx _ => exact h.resetSub hx
  | releaseCallback hx hp => exact h.releaseCallback hx hp
  | endLifetime hx hpc =>
    have hnone := h.reset (Wrappers.pcOf_of_some hx) (by rw [hpc]; rfl)
    exact h.updateKeep rfl rfl (fun _ => rfl) (fun _ => rfl) hnone.symm (by simp)
  | takeSub hx hpc hy => exact h.takeSub hl hx hpc hy
  | @takeRest w src ok x y hx hpc hy =>
    have hidle : s.wrappers.pcOf src = some .idle :=
      (hl.lender (Calls.source_of_assignRest (hpc ▸ Wrappers.pcOf_of_some hx))).2
    rw [Wrappers.pcOf_of_some hy, Option.some.injEq] at hidle
    exact h.updateTwo hx hy rfl rfl rfl rfl rfl rfl (by simp [hidle, Pc.withoutSub])
  | @setOnCompleteCB w ok x k hx hpc =>
    unfold setOnCompleteCB
    split
    · exact h.updateKeep rfl rfl (fun m => s.phaseOf_mapNative _ m fun _ => rfl)
        (fun m => s.handlerOf_mapNative _ m fun _ => rfl) (Wrappers.subOf_of_some hx).symm
        (by simp [Pc.withoutSub])
    · exact h.updateKeep rfl rfl (fun _ => rfl) (fun _ => rfl) (Wrappers.subOf_of_some hx).symm
        (by simp [Pc.withoutSub])
  | pruneOthers hx _ =>
    exact h.updateKeep rfl rfl (fun _ => rfl) (fun _ => rfl) (Wrappers.subOf_of_some hx).symm
      (by simp [Pc.withoutSub])
  | eraseToken hx _ =>
    exact h.updateKeep rfl rfl (fun _ => rfl) (fun _ => rfl) (Wrappers.subOf_of_some hx).symm
      (by simp [Pc.withoutSub])
  | deliver | callHandler | returnHandler =>
    exact h.frame (fun _ => rfl) (fun _ => rfl) (fun _ => rfl) h.reset Iff.rfl
  | complete =>
    exact h.frame (fun _ => rfl) (fun m => s.phaseOf_mapNative _ m fun _ => rfl)
      (fun m => s.handlerOf_mapNative _ m fun _ => rfl) h.reset Iff.rfl

end NatsCpp.Subscription
