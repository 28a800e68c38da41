import NatsCpp.SubscriptionSteps

/-!
# The registry and the release closures correspond

Two invariants of every run. `Calls`: what the member functions under way rely
on, above all that the source of a running move assignment rests until it is
given back, and serves one assignment only. `Correspondence`: the keys of `callback_state::callbacks` are the keys held by wrappers and by
registrations under way, each by exactly one of them, and the registry owns
the function object at each key. Neither needs a condition on the run.
-/
namespace NatsCpp.Subscription

/-- `release_callback` has run, and no key has been taken since. -/
def Pc.released : Pc → Bool
  | .dtorEnd | .assignSub _ | .assignRest _ => true
  | _ => false

/-- Neither borrowing nor past `release_callback`. -/
def Pc.plain : Pc → Bool
  | .dtorEnd | .assignRelease _ | .assignSub _ | .assignRest _ => false
  | _ => true

theorem Pc.plain_iff (p : Pc) : p.plain = true ↔ p.source = none ∧ p.released = false := by
  cases p <;> simp [Pc.plain, Pc.source, Pc.released]

/-- What running member functions rely on: the source of a move assignment rests
on loan to it alone; a wrapper that has released its key holds none; and the
source has no subscription left once the assignment took it. -/
structure Calls (f : Wrappers) : Prop where
  lender : ∀ {w src}, f.sourceOf w = some src → f.lentOf src = true ∧ f.pcOf src = some .idle
  unique : ∀ {w v src}, f.sourceOf w = some src → f.sourceOf v = some src → w = v
  cleared : ∀ {w p}, f.pcOf w = some p → p.released = true → f.keyOf w = none
  emptied : ∀ {w src}, f.pcOf w = some (.assignRest src) → f.subOf src = none

namespace Calls

variable {f : Wrappers}

theorem source_of_assignRest {w src : ℕ} (hw : f.pcOf w = some (.assignRest src)) :
    f.sourceOf w = some src := by
  obtain ⟨x, hx, hpc⟩ := Option.map_eq_some_iff.mp hw
  simp [Wrappers.sourceOf_of_some hx, hpc, Pc.source]

theorem source_ne (h : Calls f) {w src : ℕ} (hw : f.sourceOf w = some src) : w ≠ src := by
  rintro rfl
  obtain ⟨x, hx, hsrc⟩ := Option.bind_eq_some_iff.mp hw
  have hidle := (h.lender hw).2
  rw [Wrappers.pcOf_of_some hx, Option.some.injEq] at hidle
  simp [hidle, Pc.source] at hsrc

/-- A wrapper may change, if it keeps resting while on loan and borrows nothing new. -/
theorem update (h : Calls f) {w : ℕ} {x : Option Wrapper}
    (hw : f.lentOf w = true → f.pcOf w = some .idle → x.any (·.lent) = true ∧
      x.map (·.pc) = some .idle ∧ (f.subOf w = none → x.bind (·.sub) = none))
    (hsame : x.bind (·.pc.source) = none ∨ x.bind (·.pc.source) = f.sourceOf w)
    (hcleared : ∀ p, x.map (·.pc) = some p → p.released = true → x.bind (·.onRelease) = none)
    (hemptied : ∀ src, x.map (·.pc) = some (.assignRest src) → f.subOf src = none) :
    Calls (Function.update f w x) := by
  have hsource (v src : ℕ) (hv : Wrappers.sourceOf (Function.update f w x) v = some src) :
      f.sourceOf v = some src := by
    simp only [Wrappers.sourceOf_update] at hv
    split_ifs at hv with hvw
    · subst v
      rcases hsame with hx | hx
      · rw [hx] at hv
        contradiction
      · rw [← hx, hv]
    · exact hv
  constructor
  · intro v src hv
    obtain ⟨hlent, hidle⟩ := h.lender (hsource v src hv)
    by_cases hne : src = w
    · subst src
      rw [Wrappers.lentOf_update, Wrappers.pcOf_update, if_pos rfl, if_pos rfl]
      exact ⟨(hw hlent hidle).1, (hw hlent hidle).2.1⟩
    · simp [hne, hlent, hidle]
  · intro v v' src hv hv'
    exact h.unique (hsource v src hv) (hsource v' src hv')
  · intro v p hv hp
    simp only [Wrappers.pcOf_update, Wrappers.keyOf_update] at hv ⊢
    split_ifs at hv ⊢ with hvw
    · exact hcleared p hv hp
    · exact h.cleared hv hp
  · intro v src hv
    have hborrow := hsource v src (source_of_assignRest hv)
    rw [Wrappers.pcOf_update] at hv
    rw [Wrappers.subOf_update]
    by_cases hvw : v = w
    · subst v
      rw [if_pos rfl] at hv
      rw [if_neg (h.source_ne hborrow).symm]
      exact hemptied src hv
    · rw [if_neg hvw] at hv
      split_ifs with hsrc
      · subst src
        obtain ⟨hlent, hidle⟩ := h.lender hborrow
        exact (hw hlent hidle).2.2 (h.emptied hv)
      · exact h.emptied hv

theorem updatePlain (h : Calls f) {w : ℕ} {x : Option Wrapper}
    (hw : f.lentOf w = true → f.pcOf w ≠ some .idle) (hx : x.all (·.pc.plain) = true) :
    Calls (Function.update f w x) := by
  have hplain (p : Pc) (hp : x.map (·.pc) = some p) : p.source = none ∧ p.released = false := by
    obtain ⟨y, rfl, rfl⟩ := Option.map_eq_some_iff.mp hp
    exact (Pc.plain_iff _).mp hx
  apply h.update
  · exact fun hlent hidle => (hw hlent hidle).elim
  · left
    cases x with
    | none => rfl
    | some x => exact (hplain x.pc rfl).1
  · intro p hp hreleased
    rw [(hplain p hp).2] at hreleased
    contradiction
  · intro src hsrc
    have hnone := (hplain _ hsrc).1
    contradiction

/-- A running member function goes on. -/
theorem updateBusy (h : Calls f) {w : ℕ} {x : Wrapper} {x' : Option Wrapper}
    (hx : f w = some x) (hbusy : x.pc ≠ .idle) (hplain : x'.all (·.pc.plain) = true) :
    Calls (Function.update f w x') := by
  apply h.updatePlain _ hplain
  intro _
  simpa [Wrappers.pcOf_of_some hx] using hbusy

/-- A member function starts on a resting wrapper. -/
theorem updateIdle (h : Calls f) {w : ℕ} {x : Wrapper} {x' : Option Wrapper}
    (hx : f w = some x) (hidle : x.idle) (hplain : x'.all (·.pc.plain) = true) :
    Calls (Function.update f w x') := by
  apply h.updatePlain _ hplain
  intro hlent
  simp [Wrappers.lentOf_of_some hx, hidle.2] at hlent

/-- An object is constructed under an unused name. -/
theorem updateNew (h : Calls f) {w : ℕ} {x' : Option Wrapper}
    (hw : f w = none) (hplain : x'.all (·.pc.plain) = true) :
    Calls (Function.update f w x') := by
  apply h.updatePlain _ hplain
  simp [Wrappers.pcOf, hw]

theorem beginAssign (h : Calls f) {w src : ℕ} {x y : Wrapper} (hx : f w = some x)
    (hy : f src = some y) (hidle : x.idle) (hidle' : y.idle) (hne : w ≠ src) :
    Calls (Function.update (Function.update f w (some { x with pc := .assignRelease src })) src
      (some { y with lent := true })) := by
  have hfree (v t : ℕ) (u : Wrapper) (hu : f t = some u) (hui : u.idle) :
      f.sourceOf v ≠ some t := by
    intro hv
    have hlent := (h.lender hv).1
    rw [Wrappers.lentOf_of_some hu, hui.2] at hlent
    contradiction
  -- Nothing was borrowed from either of the two before, so old loans are about others.
  have hold (v t : ℕ) (hv : Wrappers.sourceOf (Function.update (Function.update f w
      (some { x with pc := .assignRelease src })) src (some { y with lent := true })) v = some t) :
      (v = w ∧ t = src) ∨ (f.sourceOf v = some t ∧ t ≠ w ∧ t ≠ src) := by
    simp only [Wrappers.sourceOf_update] at hv
    split_ifs at hv with hvs hvw
    · simp [hidle'.1, Pc.source] at hv
    · exact .inl ⟨hvw, by simpa [Pc.source] using hv.symm⟩
    · refine .inr ⟨hv, ?_, ?_⟩
      · rintro rfl
        exact hfree v t x hx hidle hv
      · rintro rfl
        exact hfree v t y hy hidle' hv
  constructor
  · intro v t hv
    rcases hold v t hv with ⟨_, rfl⟩ | ⟨hv', htw, hts⟩
    · simp [hidle'.1]
    · obtain ⟨hlent, hpc⟩ := h.lender hv'
      simp [htw, hts, hlent, hpc]
  · intro v v' t hv hv'
    rcases hold v t hv with ⟨rfl, rfl⟩ | ⟨hv₁, _, hts⟩ <;>
      rcases hold v' t hv' with ⟨rfl, ht⟩ | ⟨hv₂, _, hts'⟩
    · rfl
    · contradiction
    · contradiction
    · exact h.unique hv₁ hv₂
  · intro v p hv hp
    simp only [Wrappers.pcOf_update, Wrappers.keyOf_update] at hv ⊢
    split_ifs at hv ⊢ with hvs hvw
    · obtain rfl : Pc.idle = p := by simpa [hidle'.1] using hv
      contradiction
    · obtain rfl : Pc.assignRelease src = p := by simpa using hv
      contradiction
    · exact h.cleared hv hp
  · intro v t hv
    rcases hold v t (source_of_assignRest hv) with ⟨rfl, rfl⟩ | ⟨_, htw, hts⟩
    · simp [hne] at hv
    · simp only [Wrappers.pcOf_update, Wrappers.subOf_update, htw, hts, if_false] at hv ⊢
      split_ifs at hv with hvs hvw
      · simp [hidle'.1] at hv
      · simp at hv
      · exact h.emptied hv

theorem takeRest (h : Calls f) {w src : ℕ} {x y : Wrapper} {x' y' : Wrapper} (hx : f w = some x)
    (hpc : x.pc = .assignRest src) (hy : f src = some y) (hx' : x'.pc = .idle) (hy' : y'.pc = y.pc) :
    Calls (Function.update (Function.update f w (some x')) src (some y')) := by
  have hw : f.sourceOf w = some src := by simp [Wrappers.sourceOf_of_some hx, hpc, Pc.source]
  have hidle : y.pc = .idle := by simpa [Wrappers.pcOf_of_some hy] using (h.lender hw).2
  -- Only `w` borrowed from `src`, so whoever still borrows does so from somebody else.
  have hold (v t : ℕ) (hv : Wrappers.sourceOf (Function.update (Function.update f w (some x')) src
      (some y')) v = some t) : f.sourceOf v = some t ∧ v ≠ w := by
    simp only [Wrappers.sourceOf_update] at hv
    split_ifs at hv with hvs hvw
    · simp [hy', hidle, Pc.source] at hv
    · simp [hx', Pc.source] at hv
    · exact ⟨hv, hvw⟩
  constructor
  · intro v t hv
    obtain ⟨hv', hvw⟩ := hold v t hv
    obtain ⟨hlent, hpct⟩ := h.lender hv'
    have hts : t ≠ src := by
      rintro rfl
      exact hvw (h.unique hv' hw)
    have htw : t ≠ w := by
      rintro rfl
      simp [Wrappers.pcOf_of_some hx, hpc] at hpct
    simp [hts, htw, hlent, hpct]
  · intro v v' t hv hv'
    exact h.unique (hold v t hv).1 (hold v' t hv').1
  · intro v p hv hp
    simp only [Wrappers.pcOf_update, Wrappers.keyOf_update] at hv ⊢
    split_ifs at hv ⊢ with hvs hvw
    · obtain rfl : Pc.idle = p := by simpa [hy', hidle] using hv
      contradiction
    · obtain rfl : Pc.idle = p := by simpa [hx'] using hv
      contradiction
    · exact h.cleared hv hp
  · intro v t hv
    obtain ⟨hv', hvw⟩ := hold v t (source_of_assignRest hv)
    have htw : t ≠ w := by
      rintro rfl
      simpa [Wrappers.pcOf_of_some hx, hpc] using (h.lender hv').2
    have hts : t ≠ src := by
      rintro rfl
      exact hvw (h.unique hv' hw)
    simp only [Wrappers.pcOf_update, Wrappers.subOf_update, htw, hts, hvw, if_false] at hv ⊢
    split_ifs at hv
    · simp [hy', hidle] at hv
    · exact h.emptied hv

end Calls

theorem Calls.resetSub {s : State} (h : Calls s.wrappers) {w : ℕ} {x : Wrapper} {p : Pc}
    (hx : s.wrappers w = some x) (hp : x.pc.afterReset = some p) :
    Calls (resetSub s w { x with pc := p }).wrappers := by
  simp only [resetSub_wrappers]
  cases hpc : x.pc <;> simp only [hpc, Pc.afterReset, Option.some.injEq, reduceCtorEq] at hp
  all_goals
    subst hp
    exact h.updateBusy hx (by simp [hpc]) rfl

theorem Calls.releaseCallback {s : State} (h : Calls s.wrappers) {w : ℕ} {x : Wrapper} {p : Pc}
    (hx : s.wrappers w = some x) (hp : x.pc.afterRelease = some p) :
    Calls (releaseCallback s w { x with pc := p }).wrappers := by
  rw [releaseCallback_wrappers]
  cases hpc : x.pc <;> simp only [hpc, Pc.afterRelease, Option.some.injEq, reduceCtorEq] at hp
  case unsubRelease =>
    subst hp
    exact h.updateBusy hx (by simp [hpc]) rfl
  case dtorRelease | assignRelease src =>
    subst hp
    apply h.update
    · simp [Wrappers.pcOf_of_some hx, hpc]
    · simp [Wrappers.sourceOf_of_some hx, hpc, Pc.source]
    · simp
    · simp

theorem Calls.takeSub {s : State} (h : Calls s.wrappers) {w src : ℕ} {x y : Wrapper}
    (hx : s.wrappers w = some x) (hpc : x.pc = .assignSub src) (hy : s.wrappers src = some y) :
    Calls (takeSub s w src { x with pc := .assignRest src } y).wrappers := by
  simp only [takeSub_wrappers]
  have hsource : s.wrappers.sourceOf w = some src := by
    simp [Wrappers.sourceOf_of_some hx, hpc, Pc.source]
  have hne : w ≠ src := h.source_ne hsource
  have hkey : s.wrappers.keyOf w = none := h.cleared (Wrappers.pcOf_of_some hx) (by rw [hpc]; rfl)
  rw [Wrappers.keyOf_of_some hx] at hkey
  have hidle : y.pc = .idle := by simpa [Wrappers.pcOf_of_some hy] using (h.lender hsource).2
  have hlent : y.lent = true := by simpa [Wrappers.lentOf_of_some hy] using (h.lender hsource).1
  have hsrc : Calls (Function.update s.wrappers src (some { y with sub := none })) := by
    apply h.update
    · simp [hidle, hlent]
    · simp [hidle, Pc.source]
    · simp [hidle, Pc.released]
    · simp [hidle]
  rw [Function.update_comm hne]
  apply hsrc.update
  · simp [hne, Wrappers.pcOf_of_some hx, hpc]
  · simp [hne, hsource, Pc.source]
  · exact fun _ _ _ => hkey
  · intro t ht
    obtain rfl : src = t := by simpa using ht
    simp

theorem Calls.setOnCompleteCB {s : State} (h : Calls s.wrappers) {w : ℕ} {ok : Bool} {x : Wrapper}
    {k : Closure} (hx : s.wrappers w = some x) (hpc : x.pc = .installing k) :
    Calls (setOnCompleteCB s w x k ok).wrappers := by
  unfold Subscription.setOnCompleteCB
  split <;> exact h.updateBusy hx (by simp [hpc]) rfl

theorem calls_initial : Calls initial.wrappers := by
  constructor <;> simp [initial, Wrappers.sourceOf, Wrappers.pcOf]

theorem Calls.step {s t : State} {a : Action} (h : Calls s.wrappers) (ht : step s a = some t) :
    Calls t.wrappers := by
  cases fires_of_step ht with
  | skip | insertCallback | enterSubscribe | undoInsert | dropToken | drained | deliver
  | callHandler | returnHandler | complete => exact h
  | failSubscribe => simpa [failSubscribe] using h
  | returnSubscription _ hw => exact h.updateNew hw rfl
  | constructEmpty hw => exact h.updateNew hw rfl
  | constructSync hw _ => exact h.updateNew hw rfl
  | @moveMembers w src y hw hy hidle =>
    have hne : src ≠ w := by
      rintro rfl
      rw [hw] at hy
      contradiction
    have hnew : Calls (Function.update s.wrappers w (some y)) :=
      h.updateNew hw (by simp [hidle.1, Pc.plain])
    have hsrc : Function.update s.wrappers w (some y) src = some y := by
      rwa [Function.update_of_ne hne]
    exact hnew.updateIdle hsrc hidle (by simp [Wrapper.emptied, hidle.1, Pc.plain])
  | beginUnsubscribe hx hidle => exact h.updateIdle hx hidle rfl
  | beginDestroy hx hidle => exact h.updateIdle hx hidle rfl
  | beginAssign hx hy hidle hidle' hne => exact h.beginAssign hx hy hidle hidle' hne
  | insertCompletion hx hidle _ _ => exact h.updateIdle hx hidle rfl
  | unsubscribed hx hpc _ => exact h.updateBusy hx (by simp [hpc]) rfl
  | unsubscribeThrow hx hpc => exact h.updateBusy hx (by simp [hpc]) rfl
  | resetSub hx hp => exact h.resetSub hx hp
  | releaseCallback hx hp => exact h.releaseCallback hx hp
  | endLifetime hx hpc => exact h.updateBusy hx (by simp [hpc]) rfl
  | takeSub hx hpc hy => exact h.takeSub hx hpc hy
  | takeRest hx hpc hy => exact h.takeRest hx hpc hy rfl rfl
  | setOnCompleteCB hx hpc => exact h.setOnCompleteCB hx hpc
  | pruneOthers hx hpc => exact h.updateBusy hx (by simp [hpc]) rfl
  | eraseToken hx hpc => exact h.updateBusy hx (by simp [hpc]) rfl

/-! ## Keys -/

/-- The keys of the registry are held by wrappers and by registrations under
way, each key by exactly one holder, and the registry owns the object at each. -/
structure Correspondence (s : State) : Prop where
  owned : ∀ {a}, a ∈ s.callbacks → .registry ∈ s.functions.owners a
  registered : ∀ {w a}, s.wrappers.keyOf w = some a → a ∈ s.callbacks
  keyUnique : ∀ {w v a}, s.wrappers.keyOf w = some a → s.wrappers.keyOf v = some a → w = v
  inserted : ∀ {c r}, s.registrations c = some r → r.stage ≠ .erased → r.token.addr ∈ s.callbacks
  tokenHeld : ∀ {c r}, s.registrations c = some r →
    .registering c ∈ s.functions.owners r.token.addr ∧
      s.functions.value r.token.addr = some r.token.ident
  tokenUnique : ∀ {c r d q}, s.registrations c = some r → s.registrations d = some q →
    r.token.addr = q.token.addr → c = d
  tokenFree : ∀ {c r w}, s.registrations c = some r → s.wrappers.keyOf w ≠ some r.token.addr
  cover : ∀ {a}, a ∈ s.callbacks → (∃ w, s.wrappers.keyOf w = some a) ∨
    ∃ c r, s.registrations c = some r ∧ r.token.addr = a ∧ r.stage ≠ .erased

/-- The owners whose objects the registry's invariants speak of. -/
def Owner.ofHandler : Owner → Prop
  | .registry => True
  | .registering _ => True
  | _ => False

namespace Correspondence

variable {s t : State}

/-- Steps that leave registrations and registry alone and carry keys from wrapper to wrapper. -/
theorem frame (h : Correspondence s) (hcallbacks : t.callbacks = s.callbacks)
    (hregistrations : t.registrations = s.registrations)
    (hfunctions : SharedHeap.Keeps (fun _ o => o.ofHandler) s.functions t.functions)
    (hkeys : ∀ a, (∃ w, t.wrappers.keyOf w = some a) ↔ ∃ w, s.wrappers.keyOf w = some a)
    (hunique : ∀ {w v a}, t.wrappers.keyOf w = some a → t.wrappers.keyOf v = some a → w = v) :
    Correspondence t where
  owned ha := (hfunctions (h.owned (hcallbacks ▸ ha)) trivial).1
  registered hw := by
    obtain ⟨v, hv⟩ := (hkeys _).mp ⟨_, hw⟩
    exact hcallbacks ▸ h.registered hv
  keyUnique := hunique
  inserted hr hstage := hcallbacks ▸ h.inserted (hregistrations ▸ hr) hstage
  tokenHeld hr := by
    obtain ⟨howner, hvalue⟩ := h.tokenHeld (hregistrations ▸ hr)
    obtain ⟨howner', hvalue'⟩ := hfunctions howner trivial
    exact ⟨howner', hvalue'.trans hvalue⟩
  tokenUnique hr hq := h.tokenUnique (hregistrations ▸ hr) (hregistrations ▸ hq)
  tokenFree hr hw := by
    obtain ⟨v, hv⟩ := (hkeys _).mp ⟨_, hw⟩
    exact h.tokenFree (hregistrations ▸ hr) hv
  cover ha := by
    rw [hregistrations, hkeys]
    exact h.cover (hcallbacks ▸ ha)

/-- The special case in which every wrapper keeps its key. -/
theorem frameKeys (h : Correspondence s) (hcallbacks : t.callbacks = s.callbacks)
    (hregistrations : t.registrations = s.registrations)
    (hfunctions : SharedHeap.Keeps (fun _ o => o.ofHandler) s.functions t.functions)
    (hkeys : ∀ w, t.wrappers.keyOf w = s.wrappers.keyOf w) : Correspondence t := by
  refine h.frame hcallbacks hregistrations hfunctions (fun a => by simp only [hkeys]) ?_
  intro w v a hw hv
  exact h.keyUnique (hkeys w ▸ hw) (hkeys v ▸ hv)

theorem insertCallback (h : Correspondence s) {c a : ℕ} (hc : s.registrations c = none)
    (ha : s.functions.value a = none) : Correspondence (insertCallback s c a) := by
  have hkeeps : SharedHeap.Keeps (fun _ _ => True) s.functions
      ((s.functions.make a s.fresh (.registering c)).share a .registry) :=
    (SharedHeap.Keeps.make ha _ _).trans (SharedHeap.Keeps.share _ _)
  -- A free address is no key and no running registration's token.
  have hfree (o : Owner) : o ∉ s.functions.owners a := by
    rw [(SharedHeap.value_eq_none_iff _ _).mp ha]
    simp
  have hkey : a ∉ s.callbacks := fun hmem => hfree _ (h.owned hmem)
  have htoken {d : ℕ} {q : Registration} (hq : s.registrations d = some q) : q.token.addr ≠ a :=
    fun he => hfree _ (he ▸ (h.tokenHeld hq).1)
  have hreg {d : ℕ} {q : Registration}
      (hq : Function.update s.registrations c (some ⟨⟨a, s.fresh⟩, .inserted⟩) d = some q) :
      (d = c ∧ q = ⟨⟨a, s.fresh⟩, .inserted⟩) ∨ (d ≠ c ∧ s.registrations d = some q) := by
    rw [Function.update_apply] at hq
    split_ifs at hq with hd
    · exact .inl ⟨hd, (Option.some.inj hq).symm⟩
    · exact .inr ⟨hd, hq⟩
  constructor
  · intro b hb
    rcases Finset.mem_insert.mp hb with rfl | hb
    · simp [Subscription.insertCallback]
    · exact (hkeeps (h.owned hb) trivial).1
  · intro w b hw
    exact Finset.mem_insert_of_mem (h.registered hw)
  · exact h.keyUnique
  · intro d q hq hstage
    rcases hreg hq with ⟨_, rfl⟩ | ⟨_, hq⟩
    · exact Finset.mem_insert_self _ _
    · exact Finset.mem_insert_of_mem (h.inserted hq hstage)
  · intro d q hq
    rcases hreg hq with ⟨rfl, rfl⟩ | ⟨_, hq⟩
    · simp [Subscription.insertCallback]
    · obtain ⟨howner, hvalue⟩ := h.tokenHeld hq
      obtain ⟨howner', hvalue'⟩ := hkeeps howner trivial
      exact ⟨howner', hvalue'.trans hvalue⟩
  · intro d q e r hq hr he
    rcases hreg hq with ⟨rfl, rfl⟩ | ⟨_, hq'⟩ <;> rcases hreg hr with ⟨rfl, rfl⟩ | ⟨_, hr'⟩
    · rfl
    · exact (htoken hr' he.symm).elim
    · exact (htoken hq' he).elim
    · exact h.tokenUnique hq' hr' he
  · intro d q w hq hw
    rcases hreg hq with ⟨_, rfl⟩ | ⟨_, hq⟩
    · exact hkey (h.registered hw)
    · exact h.tokenFree hq hw
  · intro b hb
    rcases Finset.mem_insert.mp hb with rfl | hb
    · exact .inr ⟨c, _, by simp [Subscription.insertCallback]; rfl, rfl, by simp⟩
    · rcases h.cover hb with hw | ⟨d, q, hq, hqb, hstage⟩
      · exact .inl hw
      · have hd : d ≠ c := by
          rintro rfl
          rw [hc] at hq
          contradiction
        exact .inr ⟨d, q, by simpa [Subscription.insertCallback, hd] using hq, hqb, hstage⟩

/-- A registration goes on with its token still in the registry. -/
theorem restage (h : Correspondence s) {c : ℕ} {token : Closure} {stage stage' : Stage}
    (hc : s.registrations c = some ⟨token, stage⟩) (hstage : stage ≠ .erased)
    (hstage' : stage' ≠ .erased) (hcallbacks : t.callbacks = s.callbacks)
    (hregistrations : t.registrations = Function.update s.registrations c (some ⟨token, stage'⟩))
    (hfunctions : t.functions = s.functions) (hwrappers : t.wrappers = s.wrappers) :
    Correspondence t := by
  -- Every registration of `t` is one of `s` up to the stage.
  have hreg {d : ℕ} {q : Registration} (hq : t.registrations d = some q) :
      ∃ r, s.registrations d = some r ∧ r.token = q.token ∧
        (q.stage ≠ .erased → r.stage ≠ .erased) := by
    rw [hregistrations, Function.update_apply] at hq
    split_ifs at hq with hd
    · obtain rfl := Option.some.inj hq
      exact ⟨⟨token, stage⟩, hd ▸ hc, rfl, fun _ => hstage⟩
    · exact ⟨q, hq, rfl, id⟩
  constructor
  · intro a ha
    exact hfunctions ▸ h.owned (hcallbacks ▸ ha)
  · intro w a hw
    exact hcallbacks ▸ h.registered (hwrappers ▸ hw)
  · intro w v a hw hv
    exact h.keyUnique (hwrappers ▸ hw) (hwrappers ▸ hv)
  · intro d q hq hq'
    obtain ⟨r, hr, htoken, hr'⟩ := hreg hq
    exact htoken ▸ hcallbacks ▸ h.inserted hr (hr' hq')
  · intro d q hq
    obtain ⟨r, hr, htoken, _⟩ := hreg hq
    rw [hfunctions, ← htoken]
    exact h.tokenHeld hr
  · intro d q d' q' hq hq' he
    obtain ⟨r, hr, htoken, _⟩ := hreg hq
    obtain ⟨r', hr', htoken', _⟩ := hreg hq'
    exact h.tokenUnique hr hr' (by rw [htoken, htoken', he])
  · intro d q w hq
    obtain ⟨r, hr, htoken, _⟩ := hreg hq
    rw [hwrappers, ← htoken]
    exact h.tokenFree hr
  · intro a ha
    rw [hcallbacks] at ha
    rcases h.cover ha with ⟨w, hw⟩ | ⟨d, q, hq, hqa, hq'⟩
    · exact .inl ⟨w, hwrappers ▸ hw⟩
    · right
      by_cases hd : d = c
      · subst d
        obtain rfl := Option.some.inj (hc.symm.trans hq)
        exact ⟨c, ⟨token, stage'⟩, by simp [hregistrations], hqa, hstage'⟩
      · exact ⟨d, q, by simpa [hregistrations, hd] using hq, hqa, hq'⟩

theorem returnSubscription (h : Correspondence s) {c w n : ℕ} {token : Closure}
    (hc : s.registrations c = some ⟨token, .subscribing n⟩) (hw : s.wrappers w = none) :
    Correspondence (returnSubscription s c w n token) := by
  set t := Subscription.returnSubscription s c w n token with ht
  have hkey (v : ℕ) : t.wrappers.keyOf v = if v = w then some token.addr else s.wrappers.keyOf v := by
    simp [ht, Subscription.returnSubscription, dropToken]
  have hreg {d : ℕ} {q : Registration} :
      t.registrations d = some q ↔ d ≠ c ∧ s.registrations d = some q := by
    by_cases hd : d = c <;> simp [ht, Subscription.returnSubscription, dropToken, hd]
  have hfunctions : t.functions = s.functions.drop token.addr (.registering c) := by
    simp [ht, Subscription.returnSubscription, dropToken]
  have hkeeps : SharedHeap.Keeps (fun _ o => o ≠ .registering c) s.functions t.functions := by
    rw [hfunctions]
    exact .drop (by simp)
  have hfree {v : ℕ} : s.wrappers.keyOf v ≠ some token.addr := h.tokenFree hc
  have hinserted : token.addr ∈ s.callbacks := h.inserted hc (by simp)
  constructor
  · intro a ha
    exact (hkeeps (h.owned ha) (by simp)).1
  · intro v a hv
    rw [hkey] at hv
    split_ifs at hv with hvw
    · exact Option.some.inj hv ▸ hinserted
    · exact h.registered hv
  · intro v v' a hv hv'
    rw [hkey] at hv hv'
    split_ifs at hv hv' with h1 h2 h2
    · exact h1.trans h2.symm
    · exact (hfree (hv ▸ hv')).elim
    · exact (hfree (hv' ▸ hv)).elim
    · exact h.keyUnique hv hv'
  · intro d q hq hstage
    exact h.inserted (hreg.mp hq).2 hstage
  · intro d q hq
    obtain ⟨hd, hq⟩ := hreg.mp hq
    obtain ⟨howner, hvalue⟩ := h.tokenHeld hq
    obtain ⟨howner', hvalue'⟩ := hkeeps howner (by simpa using hd)
    exact ⟨howner', hvalue'.trans hvalue⟩
  · intro d q d' q' hq hq'
    exact h.tokenUnique (hreg.mp hq).2 (hreg.mp hq').2
  · intro d q v hq hv
    obtain ⟨hd, hq⟩ := hreg.mp hq
    rw [hkey] at hv
    split_ifs at hv with hvw
    · exact hd (h.tokenUnique hq hc (Option.some.inj hv).symm)
    · exact h.tokenFree hq hv
  · intro a ha
    by_cases hta : a = token.addr
    · exact .inl ⟨w, by simp [hkey, hta]⟩
    · rcases h.cover ha with ⟨v, hv⟩ | ⟨d, q, hq, hqa, hstage⟩
      · have hvw : v ≠ w := by
          rintro rfl
          simp [Wrappers.keyOf, hw] at hv
        exact .inl ⟨v, by rwa [hkey, if_neg hvw]⟩
      · have hd : d ≠ c := by
          rintro rfl
          obtain rfl := Option.some.inj (hc.symm.trans hq)
          exact hta hqa.symm
        exact .inr ⟨d, q, hreg.mpr ⟨hd, hq⟩, hqa, hstage⟩

/-- A key leaves the registry together with its only holder. -/
theorem eraseKey (h : Correspondence s) {a : ℕ} (hcallbacks : t.callbacks = s.callbacks.erase a)
    (hfunctions : t.functions = s.functions.drop a .registry)
    (hkeys : ∀ {w b}, t.wrappers.keyOf w = some b ↔ s.wrappers.keyOf w = some b ∧ b ≠ a)
    (hreg : ∀ {d q}, t.registrations d = some q → ∃ r, s.registrations d = some r ∧
      r.token = q.token ∧ (q.stage ≠ .erased → r.stage ≠ .erased ∧ q.token.addr ≠ a))
    (hkept : ∀ {d r}, s.registrations d = some r → r.stage ≠ .erased → r.token.addr ≠ a →
      t.registrations d = some r) : Correspondence t := by
  have hkeeps : SharedHeap.Keeps (fun b o => o = .registry → b ≠ a) s.functions t.functions := by
    rw [hfunctions]
    exact .drop (by simp)
  have hmem {b : ℕ} : b ∈ t.callbacks ↔ b ≠ a ∧ b ∈ s.callbacks := by
    rw [hcallbacks, Finset.mem_erase]
  constructor
  · intro b hb
    exact (hkeeps (h.owned (hmem.mp hb).2) fun _ => (hmem.mp hb).1).1
  · intro w b hw
    obtain ⟨hw, hb⟩ := hkeys.mp hw
    exact hmem.mpr ⟨hb, h.registered hw⟩
  · intro w v b hw hv
    exact h.keyUnique (hkeys.mp hw).1 (hkeys.mp hv).1
  · intro d q hq hstage
    obtain ⟨r, hr, htoken, hr'⟩ := hreg hq
    obtain ⟨hrstage, hne⟩ := hr' hstage
    exact hmem.mpr ⟨hne, htoken ▸ h.inserted hr hrstage⟩
  · intro d q hq
    obtain ⟨r, hr, htoken, _⟩ := hreg hq
    obtain ⟨howner, hvalue⟩ := h.tokenHeld hr
    obtain ⟨howner', hvalue'⟩ := hkeeps howner (by simp)
    rw [← htoken]
    exact ⟨howner', hvalue'.trans hvalue⟩
  · intro d q d' q' hq hq' he
    obtain ⟨r, hr, htoken, _⟩ := hreg hq
    obtain ⟨r', hr', htoken', _⟩ := hreg hq'
    exact h.tokenUnique hr hr' (by rw [htoken, htoken', he])
  · intro d q w hq hw
    obtain ⟨r, hr, htoken, _⟩ := hreg hq
    exact h.tokenFree hr (htoken ▸ (hkeys.mp hw).1)
  · intro b hb
    obtain ⟨hne, hb⟩ := hmem.mp hb
    rcases h.cover hb with ⟨w, hw⟩ | ⟨d, r, hr, hrb, hstage⟩
    · exact .inl ⟨w, hkeys.mpr ⟨hw, hne⟩⟩
    · exact .inr ⟨d, r, hkept hr hstage (hrb ▸ hne), hrb, hstage⟩

theorem undoInsert (h : Correspondence s) {c : ℕ} {token : Closure}
    (hc : s.registrations c = some ⟨token, .failed⟩) : Correspondence (undoInsert s c token) := by
  have hother {d : ℕ} {q : Registration} (hq : s.registrations d = some q) (hd : d ≠ c) :
      q.token.addr ≠ token.addr := fun he => hd (h.tokenUnique hq hc he)
  refine h.eraseKey (a := token.addr) rfl rfl ?_ ?_ ?_
  · intro w b
    refine ⟨fun hw => ⟨hw, ?_⟩, And.left⟩
    rintro rfl
    exact h.tokenFree hc hw
  · intro d q hq
    by_cases hd : d = c
    · subst d
      simp only [Subscription.undoInsert, State.setRegistration_registrations,
        Function.update_self, Option.some.injEq] at hq
      subst hq
      exact ⟨_, hc, rfl, fun hstage => (hstage rfl).elim⟩
    · have hq' : s.registrations d = some q := by simpa [Subscription.undoInsert, hd] using hq
      exact ⟨q, hq', rfl, fun hstage => ⟨hstage, hother hq' hd⟩⟩
  · intro d r hr _ hne
    have hd : d ≠ c := by
      rintro rfl
      obtain rfl := Option.some.inj (hc.symm.trans hr)
      exact hne rfl
    simpa [Subscription.undoInsert, hd] using hr

theorem releaseCallback (h : Correspondence s) {w : ℕ} {x x' : Wrapper}
    (hx : s.wrappers w = some x) (hkey : x'.onRelease = x.onRelease) :
    Correspondence (releaseCallback s w x') := by
  cases hrelease : x'.onRelease with
  | none =>
    refine h.frameKeys ?_ ?_ ?_ ?_
    · simp [Subscription.releaseCallback, hrelease]
    · simp [Subscription.releaseCallback, hrelease]
    · simpa [Subscription.releaseCallback, hrelease] using SharedHeap.Keeps.refl
    · intro v
      rw [releaseCallback_wrappers, Wrappers.keyOf_update]
      split_ifs with hv
      · rw [hv, Wrappers.keyOf_of_some hx, ← hkey, hrelease]
        rfl
      · rfl
  | some a =>
    have hw : s.wrappers.keyOf w = some a := by
      rw [Wrappers.keyOf_of_some hx, ← hkey, hrelease]
    refine h.eraseKey (a := a) ?_ ?_ ?_ ?_ ?_
    · simp [Subscription.releaseCallback, hrelease]
    · simp [Subscription.releaseCallback, hrelease]
    · intro v b
      rw [releaseCallback_wrappers, Wrappers.keyOf_update]
      split_ifs with hv
      · subst v
        rw [hw]
        simp [eq_comm]
      · refine ⟨fun hb => ⟨hb, ?_⟩, And.left⟩
        rintro rfl
        exact hv (h.keyUnique hb hw)
    · intro d q hq
      have hq' : s.registrations d = some q := by
        simpa [Subscription.releaseCallback, hrelease] using hq
      refine ⟨q, hq', rfl, fun hstage => ⟨hstage, ?_⟩⟩
      intro he
      exact h.tokenFree hq' (he ▸ hw)
    · intro d r hr _ _
      simpa [Subscription.releaseCallback, hrelease] using hr

theorem dropToken (h : Correspondence s) {c : ℕ} {token : Closure}
    (hc : s.registrations c = some ⟨token, .erased⟩) : Correspondence (dropToken s c token) := by
  have hkeeps : SharedHeap.Keeps (fun _ o => o ≠ .registering c) s.functions
      (s.functions.drop token.addr (.registering c)) := .drop (by simp)
  have hreg {d : ℕ} {q : Registration} :
      (Subscription.dropToken s c token).registrations d = some q ↔
        d ≠ c ∧ s.registrations d = some q := by
    by_cases hd : d = c <;> simp [Subscription.dropToken, hd]
  constructor
  · intro a ha
    exact (hkeeps (h.owned ha) (by simp)).1
  · exact h.registered
  · exact h.keyUnique
  · intro d q hq hstage
    exact h.inserted (hreg.mp hq).2 hstage
  · intro d q hq
    obtain ⟨hd, hq⟩ := hreg.mp hq
    obtain ⟨howner, hvalue⟩ := h.tokenHeld hq
    obtain ⟨howner', hvalue'⟩ := hkeeps howner (by simpa using hd)
    exact ⟨howner', hvalue'.trans hvalue⟩
  · intro d q d' q' hq hq'
    exact h.tokenUnique (hreg.mp hq).2 (hreg.mp hq').2
  · intro d q w hq
    exact h.tokenFree (hreg.mp hq).2
  · intro a ha
    rcases h.cover ha with hw | ⟨d, q, hq, hqa, hstage⟩
    · exact .inl hw
    · have hd : d ≠ c := by
        rintro rfl
        obtain rfl := Option.some.inj (hc.symm.trans hq)
        exact hstage rfl
      exact .inr ⟨d, q, hreg.mpr ⟨hd, hq⟩, hqa, hstage⟩

/-- A key that travels from `src` to a wrapper without one is still somewhere. -/
theorem exists_keyOf_moved {f g : Wrappers} {w src : ℕ}
    (hmoved : ∀ v, g.keyOf v =
      if v = src then none else if v = w then f.keyOf src else f.keyOf v)
    (hnone : f.keyOf w = none) (a : ℕ) : (∃ v, g.keyOf v = some a) ↔ ∃ v, f.keyOf v = some a := by
  constructor
  · rintro ⟨v, hv⟩
    rw [hmoved] at hv
    split_ifs at hv
    · exact ⟨src, hv⟩
    · exact ⟨v, hv⟩
  · rintro ⟨v, hv⟩
    by_cases hsrc : v = src
    · have hne : w ≠ src := by
        rintro rfl
        rw [← hsrc, hv] at hnone
        contradiction
      exact ⟨w, by rw [hmoved, if_neg hne, if_pos rfl, ← hsrc, hv]⟩
    · have hne : v ≠ w := by
        rintro rfl
        rw [hv] at hnone
        contradiction
      exact ⟨v, by rw [hmoved, if_neg hsrc, if_neg hne, hv]⟩

theorem keyOf_moved_unique (h : Correspondence s) {g : Wrappers} {w src : ℕ}
    (hmoved : ∀ v, g.keyOf v =
      if v = src then none else if v = w then s.wrappers.keyOf src else s.wrappers.keyOf v)
    {v v' a : ℕ} (hv : g.keyOf v = some a) (hv' : g.keyOf v' = some a) : v = v' := by
  rw [hmoved] at hv hv'
  split_ifs at hv hv' with h1 h2 h3 h4 h5
  · exact h2.trans h4.symm
  · exact (h3 (h.keyUnique hv' hv)).elim
  · exact (h1 (h.keyUnique hv hv')).elim
  · exact h.keyUnique hv hv'

/-- Three members move to a new wrapper, the key among them. -/
theorem moveMembers (h : Correspondence s) {w src : ℕ} {y : Wrapper} (hw : s.wrappers w = none)
    (hy : s.wrappers src = some y) : Correspondence (moveMembers s w src y) := by
  have hkey : s.wrappers.keyOf src = y.onRelease := Wrappers.keyOf_of_some hy
  have hnone : s.wrappers.keyOf w = none := by simp [Wrappers.keyOf, hw]
  have hmoved (v : ℕ) : (Subscription.moveMembers s w src y).wrappers.keyOf v =
      if v = src then none else if v = w then s.wrappers.keyOf src else s.wrappers.keyOf v := by
    simp [Subscription.moveMembers, Wrapper.emptied, hkey]
  exact h.frame rfl rfl .refl (exists_keyOf_moved hmoved hnone) (keyOf_moved_unique h hmoved)

theorem takeRest (h : Correspondence s) (hl : Calls s.wrappers) {w src : ℕ} {x y : Wrapper}
    (hx : s.wrappers w = some x) (hpc : x.pc = .assignRest src) (hy : s.wrappers src = some y) :
    Correspondence (takeRest s w src { x with pc := .idle } y) := by
  have hkey : s.wrappers.keyOf src = y.onRelease := Wrappers.keyOf_of_some hy
  have hnone : s.wrappers.keyOf w = none :=
    hl.cleared (Wrappers.pcOf_of_some hx) (by rw [hpc]; rfl)
  have hmoved (v : ℕ) : (Subscription.takeRest s w src { x with pc := .idle } y).wrappers.keyOf v =
      if v = src then none else if v = w then s.wrappers.keyOf src else s.wrappers.keyOf v := by
    simp [Subscription.takeRest, hkey]
  exact h.frame rfl rfl (.dropAll _ (by simp [Owner.ofHandler]))
    (exists_keyOf_moved hmoved hnone) (keyOf_moved_unique h hmoved)

theorem takeSub (h : Correspondence s) {w src : ℕ} {x y : Wrapper} {p : Pc}
    (hx : s.wrappers w = some x) (hy : s.wrappers src = some y) :
    Correspondence (takeSub s w src { x with pc := p } y) := by
  refine h.frameKeys ?_ ?_ ?_ ?_
  · simp [Subscription.takeSub]
  · simp [Subscription.takeSub]
  · simpa [Subscription.takeSub] using SharedHeap.Keeps.refl
  · intro v
    rw [takeSub_wrappers]
    exact Wrappers.keyOf_updateTwo v hx hy rfl rfl

/-- A step of one wrapper that does not concern its key. -/
theorem updateKeep (h : Correspondence s) {w : ℕ} {x : Option Wrapper}
    (hcallbacks : t.callbacks = s.callbacks) (hregistrations : t.registrations = s.registrations)
    (hfunctions : SharedHeap.Keeps (fun _ o => o.ofHandler) s.functions t.functions)
    (hwrappers : t.wrappers = Function.update s.wrappers w x)
    (hx : x.bind (·.onRelease) = s.wrappers.keyOf w) : Correspondence t := by
  refine h.frameKeys hcallbacks hregistrations hfunctions fun v => ?_
  rw [hwrappers, Wrappers.keyOf_update]
  split_ifs with hv
  · rw [hv, hx]
  · rfl

theorem beginAssign (h : Correspondence s) {w src : ℕ} {x y : Wrapper} {p : Pc} {lent : Bool}
    (hx : s.wrappers w = some x) (hy : s.wrappers src = some y) :
    Correspondence ((s.setWrapper w (some { x with pc := p })).setWrapper src
      (some { y with lent := lent })) := by
  refine h.frameKeys rfl rfl .refl fun v => ?_
  exact Wrappers.keyOf_updateTwo v hx hy rfl rfl

theorem setOnCompleteCB (h : Correspondence s) {w : ℕ} {x : Wrapper} {k : Closure} {ok : Bool}
    (hx : s.wrappers w = some x) : Correspondence (setOnCompleteCB s w x k ok) := by
  have hkey := (Wrappers.keyOf_of_some hx).symm
  unfold Subscription.setOnCompleteCB
  split
  · exact h.updateKeep rfl rfl .refl rfl hkey
  · exact h.updateKeep rfl rfl .refl rfl hkey

end Correspondence

/-- The completion callbacks are no business of the registry. -/
theorem keeps_dropInstalling (s : State) (p : ℕ → Prop) [DecidablePred p] (w a : ℕ) :
    SharedHeap.Keeps (fun _ o => o.ofHandler) s.functions
      (dropInstalling (dropCompletions s p) w a).functions := by
  refine SharedHeap.Keeps.trans (.dropAll p ?_) (.drop ?_)
  · simp [Owner.ofHandler]
  · simp [Owner.ofHandler]

theorem correspondence_initial : Correspondence initial := by
  constructor <;> simp [initial, Wrappers.keyOf]

theorem Correspondence.step {s t : State} {a : Action} (h : Correspondence s)
    (hl : Calls s.wrappers) (ht : step s a = some t) : Correspondence t := by
  cases fires_of_step ht with
  | skip => exact h
  | insertCallback hc ha => exact h.insertCallback hc ha
  | enterSubscribe hc _ => exact h.restage hc (by simp) (by simp) rfl rfl rfl rfl
  | returnSubscription hc hw => exact h.returnSubscription hc hw
  | failSubscribe hc =>
    have hfailed : Stage.failed ≠ .erased := by simp
    exact h.restage hc (by simp) hfailed (by simp [failSubscribe]) (by simp [failSubscribe])
      (by simp [failSubscribe]) (by simp [failSubscribe])
  | undoInsert hc => exact h.undoInsert hc
  | dropToken hc => exact h.dropToken hc
  | constructEmpty hw => exact h.updateKeep rfl rfl .refl rfl (by simp [Wrappers.keyOf, hw])
  | constructSync hw _ => exact h.updateKeep rfl rfl .refl rfl (by simp [Wrappers.keyOf, hw])
  | moveMembers hw hy _ => exact h.moveMembers hw hy
  | beginUnsubscribe hx _ => exact h.updateKeep rfl rfl .refl rfl (Wrappers.keyOf_of_some hx).symm
  | beginDestroy hx _ => exact h.updateKeep rfl rfl .refl rfl (Wrappers.keyOf_of_some hx).symm
  | beginAssign hx hy _ _ _ => exact h.beginAssign hx hy
  | drained | deliver | callHandler | returnHandler | complete =>
    exact h.frameKeys rfl rfl .refl fun _ => rfl
  | insertCompletion hx _ ha _ =>
    exact h.updateKeep rfl rfl ((SharedHeap.Keeps.make ha _ _).trans (.share _ _)) rfl
      (Wrappers.keyOf_of_some hx).symm
  | unsubscribed hx _ _ => exact h.updateKeep rfl rfl .refl rfl (Wrappers.keyOf_of_some hx).symm
  | unsubscribeThrow hx _ => exact h.updateKeep rfl rfl .refl rfl (Wrappers.keyOf_of_some hx).symm
  | @resetSub w ok x p hx _ =>
    have hwrappers := resetSub_wrappers s w { x with pc := p }
    exact h.updateKeep (by simp [resetSub]) (by simp [resetSub])
      (by simpa [resetSub] using SharedHeap.Keeps.refl) hwrappers (Wrappers.keyOf_of_some hx).symm
  | releaseCallback hx _ => exact h.releaseCallback hx rfl
  | endLifetime hx hpc =>
    have hnone := hl.cleared (Wrappers.pcOf_of_some hx) (by rw [hpc]; rfl)
    exact h.updateKeep rfl rfl (.dropAll _ (by simp [Owner.ofHandler])) rfl hnone.symm
  | takeSub hx _ hy => exact h.takeSub hx hy
  | takeRest hx hpc hy => exact h.takeRest hl hx hpc hy
  | setOnCompleteCB hx _ => exact h.setOnCompleteCB hx
  | pruneOthers hx _ =>
    exact h.updateKeep rfl rfl (keeps_dropInstalling _ _ _ _) rfl (Wrappers.keyOf_of_some hx).symm
  | eraseToken hx _ =>
    exact h.updateKeep rfl rfl (keeps_dropInstalling _ _ _ _) rfl (Wrappers.keyOf_of_some hx).symm

end NatsCpp.Subscription
