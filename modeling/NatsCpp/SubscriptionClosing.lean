import NatsCpp.SubscriptionPending

/-!
# The on-complete closure is alive when nats.c calls it

The function object of a pending closure is in the map that goes with its
subscription, and stays there when the subscription is destroyed. It dies with
the wrapper that has the map, or when that wrapper is assigned over.
-/
namespace NatsCpp.Subscription

namespace Wrappers

variable (f : Wrappers)

/-- The wrapper whose map goes with the subscription of `w`. -/
def home (w : ℕ) : ℕ := ((f.pcOf w).bind Pc.rest).getD w

/-- The map of `v` goes with the subscription `n`. -/
def MapFor (v n : ℕ) : Prop := ∃ u, f.subOf u = some n ∧ f.home u = v

theorem home_of_pcOf {f : Wrappers} {w : ℕ} {p : Pc} (hw : f.pcOf w = some p)
    (hp : p.rest = none) : f.home w = w := by
  simp [home, hw, hp]

theorem mapFor_congr {f g : Wrappers} (hsub : ∀ u, g.subOf u = f.subOf u)
    (hrest : ∀ u, (g.pcOf u).bind Pc.rest = (f.pcOf u).bind Pc.rest) (v n : ℕ) :
    g.MapFor v n ↔ f.MapFor v n := by
  simp only [MapFor, home, hsub, hrest]

/-- Only the target of a move assignment has its map elsewhere, at the source. -/
theorem sourceOf_of_home {f : Wrappers} {u v : ℕ} (hhome : f.home u = v) (hu : u ≠ v) :
    f.sourceOf u = some v := by
  unfold home at hhome
  cases hrest : (f.pcOf u).bind Pc.rest with
  | none =>
    rw [hrest] at hhome
    exact (hu hhome).elim
  | some src =>
    rw [hrest] at hhome
    obtain rfl : src = v := hhome
    exact Calls.source_of_rest hrest

end Wrappers

/-- The object of the closure `k` of `n` is in the map that goes with `n`, or,
once `n` is destroyed, in a map that goes with no subscription, or it is dead. -/
def Tracked (s : State) (n : ℕ) (k : Closure) : Prop :=
  (∃ v, k.addr ∈ s.wrappers.completionsOf v ∧ s.functions.value k.addr = some k.ident ∧
    ∀ m, s.wrappers.MapFor v m ↔ m = n ∧ s.natives.phaseOf n = some .active) ∨
  (s.natives.phaseOf n = some .destroyed ∧ s.functions.value k.addr ≠ some k.ident)

/-- The map with a token that is not let go of, before the step at `v` and after
it at `v'`, goes with the same subscription as long as that is not destroyed. -/
def Follows (s t : State) (v v' : ℕ) : Prop :=
  ∀ m, (t.wrappers.MapFor v' m → s.wrappers.MapFor v m) ∧
    (s.wrappers.MapFor v m → t.natives.phaseOf m = some .active → t.wrappers.MapFor v' m)

namespace Follows

variable {s t : State}

theorem of_iff {v v' : ℕ} (h : ∀ m, t.wrappers.MapFor v' m ↔ s.wrappers.MapFor v m) :
    Follows s t v v' := fun m => ⟨(h m).mp, fun hm _ => (h m).mpr hm⟩

/-- One wrapper changes, but neither its subscription nor its place in an assignment. -/
theorem update {w : ℕ} {x x' : Wrapper} (hx : s.wrappers w = some x)
    (hwrappers : t.wrappers = Function.update s.wrappers w (some x')) (hsub : x'.sub = x.sub)
    (hrest : x'.pc.rest = x.pc.rest) (v : ℕ) : Follows s t v v := by
  refine of_iff (Wrappers.mapFor_congr ?_ ?_ v)
  · intro u
    rw [hwrappers, Wrappers.subOf_update]
    split_ifs with hu
    · rw [hu, Wrappers.subOf_of_some hx]
      exact hsub
    · rfl
  · intro u
    rw [hwrappers, Wrappers.pcOf_update]
    split_ifs with hu
    · rw [hu, Wrappers.pcOf_of_some hx]
      exact hrest
    · rfl

/-- A new wrapper comes with an empty map of its own. -/
theorem new {w v : ℕ} {x' : Wrapper} (hw : s.wrappers w = none)
    (hwrappers : t.wrappers = Function.update s.wrappers w (some x')) (hpc : x'.pc.rest = none)
    (hv : v ≠ w) : Follows s t v v := by
  have hsub : s.wrappers.subOf w = none := by simp [Wrappers.subOf, hw]
  have hhome : t.wrappers.home w = w := by simp [Wrappers.home, hwrappers, hpc]
  have hother {u : ℕ} (hu : u ≠ w) : t.wrappers.subOf u = s.wrappers.subOf u ∧
      t.wrappers.home u = s.wrappers.home u := by
    simp [hwrappers, Wrappers.home, hu]
  refine of_iff fun m => ⟨?_, ?_⟩
  · rintro ⟨u, hu, huv⟩
    have hne : u ≠ w := by
      rintro rfl
      exact hv (huv.symm.trans hhome)
    obtain ⟨hsame, hsame'⟩ := hother hne
    exact ⟨u, hsame ▸ hu, hsame' ▸ huv⟩
  · rintro ⟨u, hu, huv⟩
    have hne : u ≠ w := by
      rintro rfl
      rw [hsub] at hu
      contradiction
    obtain ⟨hsame, hsame'⟩ := hother hne
    exact ⟨u, hsame.trans hu, hsame'.trans huv⟩

theorem resetSub (hh : Holding s) (hh' : Holding t) {w : ℕ} {x : Wrapper} {p : Pc}
    (hx : s.wrappers w = some x) (hrest : x.pc.rest = none ∧ p.rest = none)
    (ht : t = resetSub s w { x with pc := p }) (v : ℕ) : Follows s t v v := by
  have hsub (u : ℕ) : t.wrappers.subOf u = if u = w then none else s.wrappers.subOf u := by
    simp [ht, Subscription.resetSub]
  have hhome (u : ℕ) : t.wrappers.home u = s.wrappers.home u := by
    simp only [Wrappers.home, ht, Subscription.resetSub, State.setWrapper_wrappers,
      State.destroyNative_wrappers, Wrappers.pcOf_update]
    split_ifs with hu
    · simp [hu, Wrappers.pcOf_of_some hx, hrest.1, hrest.2]
    · rfl
  intro m
  constructor
  · rintro ⟨u, hu, huv⟩
    rw [hsub] at hu
    split_ifs at hu
    exact ⟨u, hu, hhome u ▸ huv⟩
  · rintro ⟨u, hu, huv⟩ hactive
    have hne : u ≠ w := by
      rintro rfl
      obtain ⟨u', hu'⟩ := hh'.held hactive
      rw [hsub] at hu'
      split_ifs at hu' with hne
      exact hne (hh.unique hu' hu)
    exact ⟨u, by rw [hsub, if_neg hne, hu], (hhome u).trans huv⟩

theorem takeSub (hl : Calls s.wrappers) (hh : Holding s) (hh' : Holding t) {w src : ℕ}
    {x y : Wrapper} (hx : s.wrappers w = some x) (hpc : x.pc = .assignSub src)
    (hy : s.wrappers src = some y)
    (ht : t = takeSub s w src { x with pc := .assignRest src } y) (v : ℕ) : Follows s t v v := by
  have hsource : s.wrappers.sourceOf w = some src := by
    simp [Wrappers.sourceOf_of_some hx, hpc, Pc.source]
  have hne : w ≠ src := hl.source_ne hsource
  have hidle : s.wrappers.pcOf src = some .idle := (hl.lender hsource).2
  have hsub (u : ℕ) : t.wrappers.subOf u =
      if u = src then none else if u = w then s.wrappers.subOf src else s.wrappers.subOf u := by
    simp [ht, Subscription.takeSub, Wrappers.subOf_of_some hy]
  have hhome (u : ℕ) (hu : u ≠ w) : t.wrappers.home u = s.wrappers.home u := by
    simp only [Wrappers.home, ht, Subscription.takeSub, State.setWrapper_wrappers,
      State.destroyNative_wrappers, Wrappers.pcOf_update, if_neg hu]
    split_ifs with hus
    · rw [hus, Wrappers.pcOf_of_some hy]
      rfl
    · rfl
  have hhome' : t.wrappers.home w = src := by
    simp [Wrappers.home, ht, Subscription.takeSub, hne, Pc.rest]
  intro m
  constructor
  · rintro ⟨u, hu, huv⟩
    rw [hsub] at hu
    split_ifs at hu with hus huw
    · subst u
      refine ⟨src, hu, ?_⟩
      rw [Wrappers.home_of_pcOf hidle rfl, ← hhome', huv]
    · exact ⟨u, hu, hhome u huw ▸ huv⟩
  · rintro ⟨u, hu, huv⟩ hactive
    by_cases hus : u = src
    · subst u
      refine ⟨w, by rw [hsub, if_neg hne, if_pos rfl, hu], ?_⟩
      rw [hhome', ← huv, Wrappers.home_of_pcOf hidle rfl]
    · have huw : u ≠ w := by
        rintro rfl
        obtain ⟨u', hu'⟩ := hh'.held hactive
        rw [hsub] at hu'
        split_ifs at hu' with h1 h2
        · exact hus (hh.unique hu hu')
        · exact h2 (hh.unique hu' hu)
      exact ⟨u, by rw [hsub, if_neg hus, if_neg huw, hu], (hhome u huw).trans huv⟩

theorem takeRest (hl : Calls s.wrappers) {w src : ℕ} {x y : Wrapper} (hx : s.wrappers w = some x)
    (hpc : x.pc = .assignRest src) (hy : s.wrappers src = some y)
    (ht : t = takeRest s w src { x with pc := .idle } y) {v : ℕ} (hv : v ≠ w) :
    Follows s t v (if v = src then w else v) := by
  have hpcw : s.wrappers.pcOf w = some (.assignRest src) := hpc ▸ Wrappers.pcOf_of_some hx
  have hsource := Calls.source_of_assignRest hpcw
  have hne : w ≠ src := hl.source_ne hsource
  have hnone : s.wrappers.subOf src = none := hl.emptied hpcw
  have hbusy : s.wrappers.pcOf w ≠ some .idle := by simp [hpcw]
  have hsub (u : ℕ) : t.wrappers.subOf u = s.wrappers.subOf u := by
    rw [ht]
    exact Wrappers.subOf_updateTwo u hx hy rfl rfl
  have hhome (u : ℕ) (hu : u ≠ w) : t.wrappers.home u = s.wrappers.home u := by
    simp only [Wrappers.home, ht, Subscription.takeRest, State.setWrapper_wrappers,
      dropCompletions_wrappers, Wrappers.pcOf_update, if_neg hu]
    split_ifs with hus
    · rw [hus, Wrappers.pcOf_of_some hy]
      rfl
    · rfl
  have hhomew : s.wrappers.home w = src := by simp [Wrappers.home, hpcw, Pc.rest]
  have hhomew' : t.wrappers.home w = w := by
    simp [Wrappers.home, ht, Subscription.takeRest, hne, Pc.rest]
  -- Only `w` has borrowed from `src`.
  have hborrow {u : ℕ} (hu : u ≠ w) (hus : u ≠ src) : s.wrappers.home u ≠ src :=
    fun huh => hu (hl.unique (Wrappers.sourceOf_of_home huh hus) hsource)
  refine of_iff fun m => ⟨?_, ?_⟩
  · rintro ⟨u, hu, huv⟩
    rw [hsub] at hu
    by_cases huw : u = w
    · subst u
      rw [hhomew'] at huv
      split_ifs at huv with hvs
      · exact ⟨w, hu, hhomew.trans hvs.symm⟩
      · exact (hv huv.symm).elim
    · rw [hhome u huw] at huv
      split_ifs at huv
      · exact (hbusy (hl.lender (Wrappers.sourceOf_of_home huv huw)).2).elim
      · exact ⟨u, hu, huv⟩
  · rintro ⟨u, hu, huv⟩
    have hus : u ≠ src := by
      rintro rfl
      rw [hnone] at hu
      contradiction
    refine ⟨u, (hsub u).trans hu, ?_⟩
    by_cases huw : u = w
    · subst u
      rw [hhomew', if_pos (huv.symm.trans hhomew)]
    · have hvs : v ≠ src := by
        rintro rfl
        exact hborrow huw hus huv
      rw [hhome u huw, huv, if_neg hvs]

theorem moveMembers (hl : Calls s.wrappers) {w src : ℕ} {y : Wrapper} (hw : s.wrappers w = none)
    (hy : s.wrappers src = some y) (hidle : y.idle) (ht : t = moveMembers s w src y) {v : ℕ}
    (hv : v ≠ w) : Follows s t v (if v = src then w else v) := by
  have hne : w ≠ src := by
    rintro rfl
    rw [hw] at hy
    contradiction
  have hnone : s.wrappers.subOf w = none := by simp [Wrappers.subOf, hw]
  have hbusy : s.wrappers.pcOf w ≠ some .idle := by simp [Wrappers.pcOf, hw]
  have hpcsrc : s.wrappers.pcOf src = some .idle := by rw [Wrappers.pcOf_of_some hy, hidle.1]
  have hsub (u : ℕ) : t.wrappers.subOf u =
      if u = src then none else if u = w then s.wrappers.subOf src else s.wrappers.subOf u := by
    simp [ht, Subscription.moveMembers, Wrapper.emptied, Wrappers.subOf_of_some hy]
  have hhome (u : ℕ) : t.wrappers.home u = s.wrappers.home u := by
    simp only [Wrappers.home, ht, Subscription.moveMembers, Wrapper.emptied,
      State.setWrapper_wrappers, Wrappers.pcOf_update]
    split_ifs with hus huw
    · rw [hus, Wrappers.pcOf_of_some hy]
      rfl
    · simp [huw, hidle.1, Pc.rest, Wrappers.pcOf, hw]
    · rfl
  have hhomew : s.wrappers.home w = w := by simp [Wrappers.home, Wrappers.pcOf, hw]
  have hhomesrc : s.wrappers.home src = src := Wrappers.home_of_pcOf hpcsrc rfl
  -- A resting wrapper that is not on loan is nobody's source.
  have hborrow {u : ℕ} (hus : u ≠ src) : s.wrappers.home u ≠ src := by
    intro huh
    have hlent := (hl.lender (Wrappers.sourceOf_of_home huh hus)).1
    rw [Wrappers.lentOf_of_some hy, hidle.2] at hlent
    contradiction
  refine of_iff fun m => ⟨?_, ?_⟩
  · rintro ⟨u, hu, huv⟩
    rw [hsub] at hu
    rw [hhome] at huv
    split_ifs at hu with hus huw
    · subst u
      rw [hhomew] at huv
      split_ifs at huv with hvs
      · exact ⟨src, hu, hhomesrc.trans hvs.symm⟩
      · exact (hv huv.symm).elim
    · split_ifs at huv
      · exact (hbusy (hl.lender (Wrappers.sourceOf_of_home huv huw)).2).elim
      · exact ⟨u, hu, huv⟩
  · rintro ⟨u, hu, huv⟩
    by_cases hus : u = src
    · subst u
      refine ⟨w, by rw [hsub, if_neg hne, if_pos rfl, hu], ?_⟩
      rw [hhome, hhomew, if_pos (huv.symm.trans hhomesrc)]
    · have huw : u ≠ w := by
        rintro rfl
        rw [hnone] at hu
        contradiction
      have hvs : v ≠ src := by
        rintro rfl
        exact hborrow hus huv
      exact ⟨u, by rw [hsub, if_neg hus, if_neg huw, hu], by rw [hhome, huv, if_neg hvs]⟩

end Follows

/-- A token that is not let go of stays in a map, and that map stays with its subscription. -/
theorem follows_of_step {s t : State} {a : Action} {v b : ℕ} (hl : Calls s.wrappers)
    (hh : Holding s) (hh' : Holding t) (ht : step s a = some t)
    (hb : b ∈ s.wrappers.completionsOf v) (hkeep : ¬ LetsGo s b .completions a) :
    ∃ v', b ∈ t.wrappers.completionsOf v' ∧ Follows s t v v' := by
  have hnew {w : ℕ} (hw : s.wrappers w = none) : v ≠ w := by
    rintro rfl
    simp [Wrappers.completionsOf, hw] at hb
  -- One wrapper changes and keeps the token if it had it.
  have hupdate {w : ℕ} {x x' : Wrapper} (hx : s.wrappers w = some x)
      (hwrappers : t.wrappers = Function.update s.wrappers w (some x')) (hsub : x'.sub = x.sub)
      (hrest : x'.pc.rest = x.pc.rest)
      (hmap : b ∈ x.completionCallbacks → b ∈ x'.completionCallbacks) :
      ∃ v', b ∈ t.wrappers.completionsOf v' ∧ Follows s t v v' := by
    refine ⟨v, ?_, .update hx hwrappers hsub hrest v⟩
    rw [hwrappers, Wrappers.completionsOf_update]
    split_ifs with hv
    · rw [hv, Wrappers.completionsOf_of_some hx] at hb
      exact hmap hb
    · exact hb
  -- Two wrappers change, but not their maps.
  have htwo {w src : ℕ} {x y x' y' : Wrapper} (hx : s.wrappers w = some x)
      (hy : s.wrappers src = some y)
      (hwrappers : t.wrappers = Function.update (Function.update s.wrappers w (some x')) src (some y'))
      (hmap : x'.completionCallbacks = x.completionCallbacks)
      (hmap' : y'.completionCallbacks = y.completionCallbacks) : b ∈ t.wrappers.completionsOf v := by
    rw [hwrappers, Wrappers.completionsOf_updateTwo v hx hy hmap hmap']
    exact hb
  cases fires_of_step ht with
  | skip | insertCallback | enterSubscribe | undoInsert | dropToken | drained | deliver
  | callHandler | returnHandler | complete => exact ⟨v, hb, .of_iff fun _ => Iff.rfl⟩
  | failSubscribe =>
    refine ⟨v, by simpa [failSubscribe] using hb, .of_iff fun m => ?_⟩
    simp [failSubscribe]
  | returnSubscription _ hw =>
    exact ⟨v, by simpa [returnSubscription, dropToken, hnew hw] using hb, .new hw rfl rfl (hnew hw)⟩
  | constructEmpty hw => exact ⟨v, by simpa [hnew hw] using hb, .new hw rfl rfl (hnew hw)⟩
  | constructSync hw _ => exact ⟨v, by simpa [hnew hw] using hb, .new hw rfl rfl (hnew hw)⟩
  | @moveMembers w src y hw hy hidle =>
    refine ⟨_, ?_, .moveMembers hl hw hy hidle rfl (hnew hw)⟩
    have hne : w ≠ src := by
      rintro rfl
      rw [hw] at hy
      contradiction
    split_ifs with hv
    · rw [hv, Wrappers.completionsOf_of_some hy] at hb
      simpa [moveMembers, hne] using hb
    · simpa [moveMembers, hv, hnew hw] using hb
  | beginUnsubscribe hx hidle => exact hupdate hx rfl rfl (by rw [hidle.1]; rfl) id
  | beginDestroy hx hidle => exact hupdate hx rfl rfl (by rw [hidle.1]; rfl) id
  | @beginAssign w src x y hx hy hidle _ hne =>
    refine ⟨v, htwo hx hy rfl rfl rfl, .of_iff (Wrappers.mapFor_congr ?_ ?_ v)⟩
    · exact fun u => Wrappers.subOf_updateTwo u hx hy rfl rfl
    · refine fun u =>
        Wrappers.view_updateTwo u hx hy (fun o => (o.map Wrapper.pc).bind Pc.rest) ?_ rfl
      simp [hidle.1, Pc.rest]
  | insertCompletion hx hidle _ _ =>
    exact hupdate hx rfl rfl (by rw [hidle.1]; rfl) (Finset.mem_insert_of_mem)
  | unsubscribed hx hpc _ => exact hupdate hx rfl rfl (by rw [hpc]; rfl) id
  | unsubscribeThrow hx hpc => exact hupdate hx rfl rfl (by rw [hpc]; rfl) id
  | @resetSub w ok x p hx hp =>
    have hrest : x.pc.rest = none ∧ p.rest = none := by
      cases hpc : x.pc <;> simp only [hpc, Pc.afterReset, Option.some.injEq, reduceCtorEq] at hp <;>
        simp [← hp, Pc.rest]
    refine ⟨v, ?_, .resetSub hh hh' hx hrest rfl v⟩
    rw [resetSub_wrappers, Wrappers.completionsOf_update]
    split_ifs with hv
    · rwa [hv, Wrappers.completionsOf_of_some hx] at hb
    · exact hb
  | @releaseCallback w ok x p hx hp =>
    refine hupdate hx (releaseCallback_wrappers _ _ _) rfl ?_ id
    cases hpc : x.pc <;> simp only [hpc, Pc.afterRelease, Option.some.injEq, reduceCtorEq] at hp <;>
      simp [← hp, Pc.rest]
  | @endLifetime w ok x hx hpc =>
    have hnone := hh.reset (Wrappers.pcOf_of_some hx) (by rw [hpc]; rfl)
    have hv : v ≠ w := by
      rintro rfl
      rw [Wrappers.completionsOf_of_some hx] at hb
      exact hkeep ⟨x, hx, by simpa [Wrapper.LetsGo, hpc] using hb⟩
    refine ⟨v, by simpa [endLifetime, hv] using hb, .of_iff (Wrappers.mapFor_congr ?_ ?_ v)⟩
    · intro u
      simp only [endLifetime, State.setWrapper_wrappers, dropCompletions_wrappers,
        Wrappers.subOf_update]
      split_ifs with hu
      · rw [hu, hnone]
        rfl
      · rfl
    · intro u
      simp only [endLifetime, State.setWrapper_wrappers, dropCompletions_wrappers,
        Wrappers.pcOf_update]
      split_ifs with hu
      · rw [hu, Wrappers.pcOf_of_some hx, hpc]
        rfl
      · rfl
  | @takeSub w src ok x y hx hpc hy =>
    exact ⟨v, htwo hx hy (takeSub_wrappers _ _ _ _ _) rfl rfl,
      .takeSub hl hh hh' hx hpc hy rfl v⟩
  | @takeRest w src ok x y hx hpc hy =>
    have hv : v ≠ w := by
      rintro rfl
      rw [Wrappers.completionsOf_of_some hx] at hb
      exact hkeep ⟨x, hx, by simpa [Wrapper.LetsGo, hpc] using hb⟩
    refine ⟨_, ?_, .takeRest hl hx hpc hy rfl hv⟩
    have hne : w ≠ src := hl.source_ne (Calls.source_of_assignRest (hpc ▸ Wrappers.pcOf_of_some hx))
    split_ifs with hvs
    · rw [hvs, Wrappers.completionsOf_of_some hy] at hb
      simpa [takeRest, hne] using hb
    · simpa [takeRest, hvs, hv] using hb
  | @setOnCompleteCB w ok x k hx hpc =>
    unfold setOnCompleteCB at hupdate ⊢
    split at hupdate
    · exact hupdate hx rfl rfl (by rw [hpc]; rfl) id
    · exact hupdate hx rfl rfl (by rw [hpc]; rfl) id
  | @pruneOthers w c ok x hx hpc =>
    refine hupdate hx rfl rfl (by rw [hpc]; rfl) fun hmem => ?_
    by_contra hne
    refine hkeep ⟨x, hx, ?_⟩
    simpa [Wrapper.LetsGo, hpc, hmem] using hne
  | @eraseToken w c ok x hx hpc =>
    refine hupdate hx rfl rfl (by rw [hpc]; rfl) fun hmem => ?_
    by_contra hne
    refine hkeep ⟨x, hx, ?_⟩
    simpa [Wrapper.LetsGo, hpc, hmem] using hne

/-- The step destroys the map that has the token `b`: the last effect of a
destructor, or of a move assignment for the map of its target. -/
def DropsMap (s : State) (b : ℕ) : Action → Prop
  | .advance w _ => ∃ x, s.wrappers w = some x ∧
      (x.pc = .dtorEnd ∨ ∃ src, x.pc = .assignRest src) ∧ b ∈ x.completionCallbacks
  | _ => False

/-- A closure that nats.c has still to call loses its token only with the whole map. -/
theorem dropsMap_of_letsGo {s : State} {a : Action} {v n : ℕ} {k : Closure} (hm : Maps s)
    (hi : Installed s) (hk : s.natives.onCompleteOf n = some k)
    (hmem : k.addr ∈ s.wrappers.completionsOf v) (hvalue : s.functions.value k.addr = some k.ident)
    (hfor : ∀ m, s.wrappers.MapFor v m ↔ m = n ∧ s.natives.phaseOf n = some .active)
    (hgo : LetsGo s k.addr .completions a) : DropsMap s k.addr a := by
  match a with
  | .advance w ok =>
    obtain ⟨x, hx, hgo⟩ := hgo
    refine ⟨x, hx, ?_⟩
    have hpc : s.wrappers.pcOf w = some x.pc := Wrappers.pcOf_of_some hx
    cases hxpc : x.pc <;> simp only [Wrapper.LetsGo, hxpc] at hgo
    case dtorEnd => exact ⟨.inl rfl, hgo⟩
    case assignRest src => exact ⟨.inr ⟨src, rfl⟩, hgo⟩
    case pruning b =>
      rw [hxpc] at hpc
      obtain ⟨m, k', hsub, hk', rfl⟩ := hi.pruning hpc
      have hw : k.addr ∈ s.wrappers.completionsOf w := by
        rw [Wrappers.completionsOf_of_some hx]
        exact hgo.1
      obtain rfl := hm.disjoint hmem hw
      obtain rfl : m = n := ((hfor m).mp ⟨v, hsub, Wrappers.home_of_pcOf hpc rfl⟩).1
      obtain rfl := Option.some.inj (hk.symm.trans hk')
      exact (hgo.2 rfl).elim
    case erasing b =>
      rw [hxpc, ← hgo] at hpc
      exact (hi.spare hpc rfl (by simp) hk hvalue).elim

/-- What is in a map that is destroyed has no other owner. -/
theorem value_of_dropsMap {s t : State} {a : Action} {b : ℕ} (hm : Maps s)
    (ht : step s a = some t) (hdrop : DropsMap s b a) :
    t.functions.value b = none ∧ t.natives = s.natives := by
  match a with
  | .advance w ok =>
    obtain ⟨x, hx, hpc, hb⟩ := hdrop
    have hmem : b ∈ s.wrappers.completionsOf w := by
      rw [Wrappers.completionsOf_of_some hx]
      exact hb
    have htoken : s.wrappers.tokenOf w ≠ some b := by
      rw [Wrappers.tokenOf_of_some hx]
      rcases hpc with hpc | ⟨src, hpc⟩ <;> simp [hpc, Pc.token]
    have howners : (s.functions.owners b).erase .completions = ∅ := by
      rw [Finset.erase_eq_empty_iff, ← Finset.subset_singleton_iff]
      exact hm.sole_of_token hmem htoken
    have hdropped : (s.functions.dropAll (· ∈ x.completionCallbacks) .completions).value b = none := by
      rw [SharedHeap.value_dropAll, if_pos ⟨hb, howners⟩]
    rcases hpc with hpc | ⟨src, hpc⟩
    · simp only [step, advance, hx, hpc, Option.some.injEq] at ht
      subst t
      exact ⟨hdropped, rfl⟩
    · simp only [step, advance, hx, hpc] at ht
      obtain ⟨y, -, rfl⟩ := Option.map_eq_some_iff.mp ht
      exact ⟨hdropped, rfl⟩

/-- A map that is destroyed goes with no subscription. -/
theorem not_mapFor_of_dropsMap {s : State} {a : Action} {v m b : ℕ} (hl : Calls s.wrappers)
    (hh : Holding s) (hm : Maps s) (hb : b ∈ s.wrappers.completionsOf v) (hdrop : DropsMap s b a) :
    ¬ s.wrappers.MapFor v m := by
  rintro ⟨u, hu, huv⟩
  match a with
  | .advance w ok =>
    obtain ⟨x, hx, hpc, hbx⟩ := hdrop
    have hbw : b ∈ s.wrappers.completionsOf w := by
      rw [Wrappers.completionsOf_of_some hx]
      exact hbx
    obtain rfl := hm.disjoint hb hbw
    have hpcv := Wrappers.pcOf_of_some hx
    by_cases hne : u = v
    · subst u
      rcases hpc with hpc | ⟨src, hpc⟩
      · rw [hh.reset hpcv (by rw [hpc]; rfl)] at hu
        contradiction
      · rw [hpc] at hpcv
        have hhome : s.wrappers.home v = src := by simp [Wrappers.home, hpcv, Pc.rest]
        exact hl.source_ne (Calls.source_of_assignRest hpcv) (huv.symm.trans hhome)
    · have hidle := (hl.lender (Wrappers.sourceOf_of_home huv hne)).2
      rw [hpcv, Option.some.injEq] at hidle
      rcases hpc with hpc | ⟨src, hpc⟩ <;> simp [hpc] at hidle

/-- The invariants of every run on which the results about on-complete closures rest. -/
structure Pending (s : State) : Prop where
  calls : Calls s.wrappers
  correspondence : Correspondence s
  holding : Holding s
  maps : Maps s
  installed : Installed s
  tracked : ∀ {n k}, s.natives.pendingOf n = some k → Tracked s n k
  closed : ∀ {n y}, s.natives n = some y → y.phase = .destroyed → y.closed = true

namespace Pending

variable {s t : State} {a : Action}

/-- A subscription with a pending closure is active or destroyed. -/
theorem phase (h : Pending s) {n : ℕ} {k : Closure} (hk : s.natives.pendingOf n = some k) :
    s.natives.phaseOf n = some .active ∨ s.natives.phaseOf n = some .destroyed := by
  obtain ⟨y, hy, -⟩ := Option.bind_eq_some_iff.mp hk
  have hphase : s.natives.phaseOf n = some y.phase := by simp [Natives.phaseOf, hy]
  cases hp : y.phase with
  | subscribing =>
    have hnone := h.installed.subscribing (hphase.trans (congrArg some hp))
    rw [Natives.onCompleteOf_of_pendingOf hk] at hnone
    contradiction
  | active => exact .inl (hphase.trans (congrArg some hp))
  | destroyed => exact .inr (hphase.trans (congrArg some hp))

theorem phase_of_step (h : Pending s) (ht : step s a = some t) {n : ℕ} {k : Closure}
    (hk : s.natives.pendingOf n = some k) :
    (s.natives.phaseOf n = some .destroyed → t.natives.phaseOf n = some .destroyed) ∧
      (t.natives.phaseOf n = some .active → s.natives.phaseOf n = some .active) := by
  have hphase := h.phase hk
  rcases phaseOf_of_step h.holding ht n with hsame | hnone | ⟨hsub, -⟩ | hdestroyed
  · rw [hsame]
    exact ⟨id, id⟩
  · simp [Natives.phaseOf, hnone] at hphase
  · simp [hsub] at hphase
  · rw [hdestroyed]
    exact ⟨fun _ => rfl, by simp⟩

theorem tracked_of_installs (h : Pending s) (ht : step s a = some t) (hh' : Holding t)
    (hl' : Calls t.wrappers) (hm' : Maps t) {w n : ℕ} {k : Closure} (hi : Installs s a w n k) :
    Tracked t n k := by
  obtain ⟨-, hsub, hpc⟩ := onCompleteOf_of_installs h.holding ht hi
  have htoken : t.wrappers.tokenOf w = some k.addr := by simp [Wrappers.tokenOf, hpc, Pc.token]
  have htoken' : s.wrappers.tokenOf w = some k.addr := by
    simp [Wrappers.tokenOf, hi.2.1, Pc.token]
  refine .inl ⟨w, (hm'.token htoken).1, ?_, fun m => ⟨?_, ?_⟩⟩
  · have hkeep : ¬ LetsGo s k.addr .completions a := by
      rw [hi.1]
      rintro ⟨x, hx, hgo⟩
      have hxpc : x.pc = .installing k := by simpa [Wrappers.pcOf_of_some hx] using hi.2.1
      simp [Wrapper.LetsGo, hxpc] at hgo
    have howned := h.maps.owned (h.maps.token htoken').1
    exact (keeps_of_step ht howned hkeep).2.trans (h.maps.value hi.2.1)
  · rintro ⟨u, hu, huw⟩
    by_cases hne : u = w
    · subst u
      exact ⟨Option.some.inj (hu.symm.trans hsub), hh'.active hsub⟩
    · have hidle := (hl'.lender (Wrappers.sourceOf_of_home huw hne)).2
      simp [hpc] at hidle
  · rintro ⟨rfl, -⟩
    exact ⟨w, hsub, Wrappers.home_of_pcOf hpc rfl⟩

/-- Alive before the step, a pending closure is alive after it or goes with its map,
and then its subscription is destroyed. -/
theorem alive_of_step (h : Pending s) (ht : step s a = some t) (hh' : Holding t) {n v : ℕ}
    {k : Closure} (hk : s.natives.pendingOf n = some k)
    (hmem : k.addr ∈ s.wrappers.completionsOf v) (hvalue : s.functions.value k.addr = some k.ident)
    (hfor : ∀ m, s.wrappers.MapFor v m ↔ m = n ∧ s.natives.phaseOf n = some .active) :
    (∃ v', k.addr ∈ t.wrappers.completionsOf v' ∧ t.functions.value k.addr = some k.ident ∧
      ∀ m, t.wrappers.MapFor v' m ↔ m = n ∧ t.natives.phaseOf n = some .active) ∨
    (DropsMap s k.addr a ∧ s.natives.phaseOf n = some .destroyed) := by
  have hphase := h.phase_of_step ht hk
  by_cases hgo : LetsGo s k.addr .completions a
  · have hdrop := dropsMap_of_letsGo h.maps h.installed (Natives.onCompleteOf_of_pendingOf hk) hmem
      hvalue hfor hgo
    refine .inr ⟨hdrop, (h.phase hk).resolve_left fun hactive => ?_⟩
    exact not_mapFor_of_dropsMap h.calls h.holding h.maps hmem hdrop ((hfor n).mpr ⟨rfl, hactive⟩)
  · obtain ⟨v', hmem', hfollows⟩ := follows_of_step h.calls h.holding hh' ht hmem hgo
    have halive := (keeps_of_step ht (h.maps.owned hmem) hgo).2.trans hvalue
    refine .inl ⟨v', hmem', halive, fun m => ⟨fun hm => ?_, ?_⟩⟩
    · obtain ⟨rfl, -⟩ := (hfor m).mp ((hfollows m).1 hm)
      obtain ⟨u, hu, -⟩ := hm
      exact ⟨rfl, hh'.active hu⟩
    · rintro ⟨rfl, hactive⟩
      exact (hfollows m).2 ((hfor m).mpr ⟨rfl, hphase.2 hactive⟩) hactive

theorem tracked_of_step (h : Pending s) (ht : step s a = some t) (hh' : Holding t)
    (hl' : Calls t.wrappers) (hm' : Maps t) {n : ℕ} {k : Closure}
    (hk : t.natives.pendingOf n = some k) : Tracked t n k := by
  rcases pendingOf_of_step ht hk with hold | ⟨w, hi⟩
  · have hphase := h.phase_of_step ht hold
    rcases h.tracked hold with ⟨v, hmem, hvalue, hfor⟩ | ⟨hdestroyed, hdead⟩
    · rcases h.alive_of_step ht hh' hold hmem hvalue hfor with halive | ⟨hdrop, hdestroyed⟩
      · exact .inl halive
      · right
        rw [(value_of_dropsMap h.maps ht hdrop).1]
        exact ⟨hphase.1 hdestroyed, by simp⟩
    · right
      refine ⟨hphase.1 hdestroyed, fun hvalue => hdead ?_⟩
      have hfresh := h.installed.fresh (Natives.onCompleteOf_of_pendingOf hold)
      exact (ages_of_step ht).old hvalue hfresh
  · exact h.tracked_of_installs ht hh' hl' hm' hi

end Pending

/-- `natsSubscription_Destroy` closes the subscription it destroys. -/
theorem closed_of_step {s t : State} {a : Action} (ht : step s a = some t)
    (h : ∀ {n y}, s.natives n = some y → y.phase = .destroyed → y.closed = true) {n : ℕ}
    {y : Native} (hy : t.natives n = some y) (hphase : y.phase = .destroyed) : y.closed = true := by
  have hmap {m : ℕ} {f : Native → Native} (hy : (s.mapNative m f).natives n = some y)
      (hf : ∀ z, (f z).phase = .destroyed → (z.phase = .destroyed → z.closed = true) →
        (f z).closed = true) : y.closed = true := by
    rw [State.mapNative_natives, Function.update_apply] at hy
    split_ifs at hy with hn
    · obtain ⟨z, hz, rfl⟩ := Option.map_eq_some_iff.mp hy
      exact hf z hphase (h hz)
    · exact h hy hphase
  have hdestroy {o : Option ℕ} (hy : (s.destroyNative o).natives n = some y) :
      y.closed = true := by
    cases o with
    | none => exact h hy hphase
    | some m => exact hmap hy fun _ _ _ => rfl
  cases fires_of_step ht with
  | skip | insertCallback | undoInsert | dropToken | constructEmpty | moveMembers
  | beginUnsubscribe | beginDestroy | beginAssign | insertCompletion | unsubscribeThrow
  | endLifetime | takeRest | pruneOthers | eraseToken | deliver | callHandler | returnHandler =>
    exact h hy hphase
  | enterSubscribe | constructSync =>
    simp only [enterSubscribe, State.setRegistration_natives, State.setWrapper_natives,
      State.setNative_natives, Function.update_apply] at hy
    split_ifs at hy
    · obtain rfl := Option.some.inj hy
      contradiction
    · exact h hy hphase
  | returnSubscription => exact hmap hy fun z hz _ => by simp at hz
  | @failSubscribe c m => exact hdestroy (o := some m) hy
  | drained | unsubscribed => exact hmap hy fun _ _ _ => rfl
  | resetSub => exact hdestroy hy
  | releaseCallback =>
    unfold releaseCallback at hy
    split at hy
    · exact h hy hphase
    · exact h hy hphase
  | takeSub => exact hdestroy hy
  | setOnCompleteCB =>
    unfold setOnCompleteCB at hy
    split at hy
    · exact hmap hy fun _ hz hclosed => hclosed hz
    · exact h hy hphase
  | complete => exact hmap hy fun _ hz hclosed => hclosed hz

theorem pending_invariant : machine.Invariant Machine.Free Pending where
  init := by
    refine ⟨calls_initial, correspondence_initial, holding_initial, maps_initial,
      installed_initial, ?_, ?_⟩
    · simp [machine, initial, Natives.pendingOf]
    · simp [machine, initial]
  step := by
    intro s a t h _ ht
    have hl' := h.calls.step ht
    have hh' := h.holding.step h.calls h.correspondence ht
    have hm' := h.maps.step h.calls ht
    exact ⟨hl', h.correspondence.step h.calls ht, hh', hm',
      h.installed.step h.calls h.holding hh' h.maps ht,
      fun hk => h.tracked_of_step ht hh' hl' hm' hk, closed_of_step ht h.closed⟩

/-- Any on-complete callback that nats.c may run now finds its function alive. -/
def CompletionsAlive (s : State) : Prop :=
  ∀ n, (step s (.complete n)).isSome = true → ∀ k, s.natives.onCompleteOf n = some k →
    s.functions.value k.addr = some k.ident

/-- The step destroys no map with a closure that nats.c has still to call. -/
def KeepsAwaited (s : State) (a : Action) : Prop :=
  ∀ n k, s.natives.awaitedOf n = some k → ¬ DropsMap s k.addr a

theorem completionsAlive_iff (s : State) : CompletionsAlive s ↔
    ∀ n k, s.natives.awaitedOf n = some k → s.functions.value k.addr = some k.ident := by
  refine forall_congr' fun n => ?_
  cases hn : s.natives n with
  | none => simp [step, complete, hn, Natives.awaitedOf, Natives.onCompleteOf]
  | some y =>
    obtain ⟨phase, handler, closed, onComplete, completed⟩ := y
    cases closed <;> cases completed <;> cases onComplete <;>
      simp [step, complete, hn, Natives.awaitedOf, Natives.onCompleteOf]

theorem completionsAlive_step_iff {s t : State} {a : Action} (h : Pending s)
    (halive : CompletionsAlive s) (ht : step s a = some t) :
    CompletionsAlive t ↔ KeepsAwaited s a := by
  have h' := pending_invariant.step h trivial ht
  rw [completionsAlive_iff] at halive ⊢
  constructor
  · intro halive' n k hk hdrop
    obtain ⟨hdead, hnatives⟩ := value_of_dropsMap h.maps ht hdrop
    have hvalue := halive' n k (by rw [hnatives, hk])
    rw [hdead] at hvalue
    contradiction
  · intro hkeep n k hk
    have hawaited (hold : s.natives.pendingOf n = some k)
        (hdestroyed : s.natives.phaseOf n = some .destroyed) : s.natives.awaitedOf n = some k := by
      obtain ⟨y, hy, hpending⟩ := Option.bind_eq_some_iff.mp hold
      have hphase : y.phase = .destroyed := by simpa [Natives.phaseOf, hy] using hdestroyed
      have hclosed := h.closed hy hphase
      split_ifs at hpending with hdone
      simp [Natives.awaitedOf, hy, hclosed, hdone, hpending]
    rcases pendingOf_of_step ht (Natives.pendingOf_of_awaitedOf hk) with hold | ⟨w, hi⟩
    · rcases h.tracked hold with ⟨v, hmem, hvalue, hfor⟩ | ⟨hdestroyed, hdead⟩
      · rcases h.alive_of_step ht h'.holding hold hmem hvalue hfor with
          ⟨v', -, hvalue', -⟩ | ⟨hdrop, hdestroyed⟩
        · exact hvalue'
        · exact (hkeep n k (hawaited hold hdestroyed) hdrop).elim
      · exact (hdead (halive n k (hawaited hold hdestroyed))).elim
    · rcases h.tracked_of_installs ht h'.holding h'.calls h'.maps hi with
        ⟨v', -, hvalue', -⟩ | ⟨hdestroyed, -⟩
      · exact hvalue'
      · have hactive := h'.holding.active (onCompleteOf_of_installs h.holding ht hi).2.1
        rw [hdestroyed] at hactive
        contradiction

/-- In a run every on-complete callback finds its function alive whenever nats.c
may run it, exactly if no step of the run destroys the map of a wrapper, by the
destructor or by a move assignment over it, with a closure of a closed
subscription that has still to be called. -/
theorem completionsAlive_throughout_iff (as : List Action) :
    machine.Throughout CompletionsAlive machine.init as ↔
      machine.Respects KeepsAwaited machine.init as := by
  refine pending_invariant.throughout_iff ?_ pending_invariant.init ?_ as
  · intro s a t h halive ht
    exact completionsAlive_step_iff h halive ht
  · intro n hn
    simp [machine, initial, step, complete] at hn

/-- A callback is installed, and the wrapper is destroyed before nats.c has called it. -/
def destroyBeforeComplete : List Action :=
  [.registerInsert 0 0, .subscribeBegin 0 0, .subscribeOk 0 0, .setOnCompleteCallback 0 1,
    .advance 0 true, .advance 0 true, .destroy 0, .advance 0 true, .advance 0 true, .advance 0 true]

/-- The callback that nats.c runs then has been freed. -/
theorem destroyBeforeComplete_not_alive :
    ¬ machine.Throughout CompletionsAlive machine.init destroyBeforeComplete := by
  intro h
  have hrun : (machine.run machine.init destroyBeforeComplete).map (fun s =>
      (s.natives.onCompleteOf 0, s.functions.value 1, (step s (.complete 0)).isSome)) =
        some (some ⟨1, 1⟩, none, true) := by
    decide
  obtain ⟨s, hs, hview⟩ := Option.map_eq_some_iff.mp hrun
  obtain ⟨hk, hdead, hstep⟩ : s.natives.onCompleteOf 0 = some ⟨1, 1⟩ ∧ s.functions.value 1 = none ∧
      (step s (.complete 0)).isSome = true := by simpa using hview
  have halive := (h.of_run hs) 0 hstep _ hk
  rw [hdead] at halive
  contradiction

end NatsCpp.Subscription
