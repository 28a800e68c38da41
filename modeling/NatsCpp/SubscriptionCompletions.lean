import NatsCpp.SubscriptionDelivery

/-!
# The maps of completion callbacks

The tokens of `set_on_complete_callback` belong to the map of one wrapper each
and, while the call runs, to the call. A map travels with the subscription whose
closures it holds, in the second half of a move assignment a step behind it.
-/
namespace NatsCpp.Subscription

/-- The token that a running `set_on_complete_callback` holds. -/
def Pc.token : Pc → Option ℕ
  | .installing k => some k.addr
  | .pruning a | .erasing a => some a
  | _ => none

namespace Wrappers

variable (f : Wrappers) (w v : ℕ)

def tokenOf : Option ℕ := (f.pcOf w).bind Pc.token

@[simp] theorem tokenOf_update (x : Option Wrapper) : tokenOf (Function.update f w x) v =
    if v = w then x.bind (·.pc.token) else f.tokenOf v := by
  simp only [tokenOf, pcOf_update]
  split_ifs
  · rw [Option.bind_map]
    rfl
  · rfl

theorem tokenOf_of_some {f : Wrappers} {w : ℕ} {x : Wrapper} (hx : f w = some x) :
    f.tokenOf w = x.pc.token := by
  simp [tokenOf, pcOf_of_some hx]

theorem tokenOf_of_pcOf {f : Wrappers} {w : ℕ} {p : Pc} (hw : f.pcOf w = some p) :
    f.tokenOf w = p.token := by
  simp [tokenOf, hw]

end Wrappers

structure Maps (s : State) : Prop where
  disjoint : ∀ {w v a}, a ∈ s.wrappers.completionsOf w → a ∈ s.wrappers.completionsOf v → w = v
  owned : ∀ {w a}, a ∈ s.wrappers.completionsOf w → .completions ∈ s.functions.owners a
  sole : ∀ {w a}, a ∈ s.wrappers.completionsOf w →
    s.functions.owners a ⊆ {.completions, .installing w}
  installer : ∀ {w a}, .installing w ∈ s.functions.owners a → s.wrappers.tokenOf w = some a
  token : ∀ {w a}, s.wrappers.tokenOf w = some a → a ∈ s.wrappers.completionsOf w ∧
    .installing w ∈ s.functions.owners a
  value : ∀ {w k}, s.wrappers.pcOf w = some (.installing k) →
    s.functions.value k.addr = some k.ident

/-- Only `set_on_complete_callback` takes a token on its own account. -/
theorem noGain_of_step {s t : State} {a : Action} {w : ℕ} (ht : step s a = some t) :
    SharedHeap.NoGain (fun b o => o = .installing w ∧ a ≠ .setOnCompleteCallback w b)
      s.functions t.functions := by
  cases fires_of_step ht with
  | skip | enterSubscribe | constructEmpty | constructSync | moveMembers | beginUnsubscribe
  | beginDestroy | beginAssign | drained | unsubscribed | unsubscribeThrow | deliver
  | callHandler | returnHandler | complete => exact .refl
  | insertCallback => exact (SharedHeap.NoGain.refl.make _ (by simp)).share (by simp)
  | @insertCompletion v b n x =>
    refine (SharedHeap.NoGain.refl.make _ ?_).share (by simp)
    rintro ⟨hv, hne⟩
    obtain rfl : v = w := Owner.installing.inj hv
    exact hne rfl
  | failSubscribe => simpa [failSubscribe] using SharedHeap.NoGain.refl
  | returnSubscription | undoInsert | dropToken => exact SharedHeap.NoGain.refl.drop _ _
  | resetSub => simpa [resetSub] using SharedHeap.NoGain.refl
  | releaseCallback =>
    unfold releaseCallback
    split
    · exact .refl
    · exact SharedHeap.NoGain.refl.drop _ _
  | endLifetime | takeRest => exact SharedHeap.NoGain.refl.dropAll _ _
  | takeSub => simpa [takeSub] using SharedHeap.NoGain.refl
  | setOnCompleteCB =>
    unfold setOnCompleteCB
    split <;> exact .refl
  | pruneOthers | eraseToken => exact (SharedHeap.NoGain.refl.dropAll _ _).drop _ _

theorem installing_of_step {s t : State} {a : Action} {w b : ℕ} (ht : step s a = some t)
    (hb : .installing w ∈ t.functions.owners b) (ha : a ≠ .setOnCompleteCallback w b) :
    .installing w ∈ s.functions.owners b :=
  noGain_of_step ht hb ⟨rfl, ha⟩

namespace Maps

variable {s t : State}

theorem allocated (h : Maps s) {w b : ℕ} (hb : b ∈ s.wrappers.completionsOf w) :
    s.functions.value b ≠ none :=
  SharedHeap.value_ne_none_of_owner _ (h.owned hb)

/-- No call holds a token out of the map of another wrapper. -/
theorem sole_of_token (h : Maps s) {w b : ℕ} (hb : b ∈ s.wrappers.completionsOf w)
    (hw : s.wrappers.tokenOf w ≠ some b) : s.functions.owners b ⊆ {.completions} := by
  intro o ho
  have ho' := h.sole hb ho
  simp only [Finset.mem_insert, Finset.mem_singleton] at ho' ⊢
  rcases ho' with rfl | rfl
  · rfl
  · exact (hw (h.installer ho)).elim

/-- Steps in which maps only travel or shrink, and no call takes a token. -/
theorem frame (h : Maps s) {a : Action} (ht : step s a = some t)
    (hmaps : ∀ {v b}, b ∈ t.wrappers.completionsOf v → ∃ u, b ∈ s.wrappers.completionsOf u ∧
      (u = v ∨ s.wrappers.tokenOf u = none))
    (hdisjoint : ∀ {v u b}, b ∈ t.wrappers.completionsOf v → b ∈ t.wrappers.completionsOf u → v = u)
    (htoken : ∀ {v b}, t.wrappers.tokenOf v = some b → s.wrappers.tokenOf v = some b ∧
      (b ∈ s.wrappers.completionsOf v → b ∈ t.wrappers.completionsOf v) ∧
        ¬ LetsGo s b (.installing v) a)
    (hinstaller : ∀ {v b}, s.wrappers.tokenOf v = some b → .installing v ∈ t.functions.owners b →
      t.wrappers.tokenOf v = some b)
    (hcall : ∀ v b, a ≠ .setOnCompleteCallback v b)
    (hlets : ∀ {v b}, b ∈ t.wrappers.completionsOf v → ¬ LetsGo s b .completions a)
    (hvalue : ∀ {v k}, t.wrappers.pcOf v = some (.installing k) →
      s.wrappers.pcOf v = some (.installing k)) : Maps t where
  disjoint := hdisjoint
  owned hv := by
    obtain ⟨u, hu, _⟩ := hmaps hv
    exact (keeps_of_step ht (h.owned hu) (hlets hv)).1
  sole hv := by
    obtain ⟨u, hu, hsame⟩ := hmaps hv
    refine ((ages_of_step ht).shrinks (h.allocated hu)).1.trans ?_
    rcases hsame with rfl | hnone
    · exact h.sole hu
    · exact (h.sole_of_token hu (by simp [hnone])).trans (by simp)
  installer hv := hinstaller (h.installer (installing_of_step ht hv (hcall _ _))) hv
  token hv := by
    obtain ⟨hold, hmem, hlets'⟩ := htoken hv
    exact ⟨hmem (h.token hold).1, (keeps_of_step ht (h.token hold).2 hlets').1⟩
  value := by
    intro v k hv
    have htoken' : t.wrappers.tokenOf v = some k.addr := by
      simp [Wrappers.tokenOf, hv, Pc.token]
    obtain ⟨hold, _, hlets'⟩ := htoken htoken'
    exact (keeps_of_step ht (h.token hold).2 hlets').2.trans (h.value (hvalue hv))

/-- Every wrapper keeps its map and every call its token. -/
theorem frameSame (h : Maps s) {a : Action} (ht : step s a = some t)
    (hmaps : ∀ v, t.wrappers.completionsOf v = s.wrappers.completionsOf v)
    (htokens : ∀ v, t.wrappers.tokenOf v = s.wrappers.tokenOf v)
    (hvalue : ∀ {v k}, t.wrappers.pcOf v = some (.installing k) →
      s.wrappers.pcOf v = some (.installing k))
    (hcall : ∀ v b, a ≠ .setOnCompleteCallback v b)
    (hlets : ∀ b, ¬ LetsGo s b .completions a)
    (hletsInstalling : ∀ v b, ¬ LetsGo s b (.installing v) a) : Maps t := by
  refine h.frame ht ?_ ?_ ?_ ?_ hcall (fun _ => hlets _) hvalue
  · intro v b hb
    exact ⟨v, hmaps v ▸ hb, .inl rfl⟩
  · intro v u b hv hu
    exact h.disjoint (hmaps v ▸ hv) (hmaps u ▸ hu)
  · intro v b hb
    exact ⟨htokens v ▸ hb, fun hmem => (hmaps v).symm ▸ hmem, hletsInstalling v b⟩
  · intro v b hb _
    rw [htokens, hb]

/-- One wrapper changes, but not its map, and its call keeps its token. -/
theorem updateKeep (h : Maps s) {a : Action} (ht : step s a = some t) {w : ℕ} {x : Option Wrapper}
    (hwrappers : t.wrappers = Function.update s.wrappers w x)
    (hmap : x.elim ∅ (·.completionCallbacks) = s.wrappers.completionsOf w)
    (htoken : x.bind (·.pc.token) = s.wrappers.tokenOf w)
    (hpc : ∀ k, x.map (·.pc) ≠ some (.installing k))
    (hcall : ∀ v b, a ≠ .setOnCompleteCallback v b)
    (hlets : ∀ b, ¬ LetsGo s b .completions a)
    (hletsInstalling : ∀ v b, ¬ LetsGo s b (.installing v) a) : Maps t := by
  refine h.frameSame ht ?_ ?_ ?_ hcall hlets hletsInstalling
  · intro v
    rw [hwrappers, Wrappers.completionsOf_update]
    split_ifs with hv
    · rw [hv, hmap]
    · rfl
  · intro v
    rw [hwrappers, Wrappers.tokenOf_update]
    split_ifs with hv
    · rw [hv, htoken]
    · rfl
  · intro v k hv
    rw [hwrappers, Wrappers.pcOf_update] at hv
    split_ifs at hv
    · exact (hpc k hv).elim
    · exact hv

/-- Two wrappers change, but not their maps, and their calls keep their tokens. -/
theorem updateTwo (h : Maps s) {a : Action} (ht : step s a = some t) {w src : ℕ}
    {x y x' y' : Wrapper} (hx : s.wrappers w = some x) (hy : s.wrappers src = some y)
    (hwrappers : t.wrappers = Function.update (Function.update s.wrappers w (some x')) src (some y'))
    (hmap : x'.completionCallbacks = x.completionCallbacks) (htoken : x'.pc.token = x.pc.token)
    (hpc : ∀ k, x'.pc ≠ .installing k) (hmap' : y'.completionCallbacks = y.completionCallbacks)
    (hpc' : y'.pc = y.pc) (hcall : ∀ v b, a ≠ .setOnCompleteCallback v b)
    (hlets : ∀ b, ¬ LetsGo s b .completions a)
    (hletsInstalling : ∀ v b, ¬ LetsGo s b (.installing v) a) : Maps t := by
  refine h.frameSame ht ?_ ?_ ?_ hcall hlets hletsInstalling
  · intro v
    rw [hwrappers, Wrappers.completionsOf_updateTwo v hx hy hmap hmap']
  · intro v
    rw [hwrappers]
    exact Wrappers.view_updateTwo v hx hy (fun o => (o.map Wrapper.pc).bind Pc.token) htoken
      (congrArg Pc.token hpc')
  · intro v k hv
    simp only [hwrappers, Wrappers.pcOf_update, Option.map_some] at hv
    split_ifs at hv with h1 h2
    · rw [h1, Wrappers.pcOf_of_some hy, ← hpc', hv]
    · exact (hpc k (Option.some.inj hv)).elim
    · exact hv

/-- A call on `w` goes on, with its map and its token if it has one. -/
theorem advance (h : Maps s) {w : ℕ} {ok : Bool} {x x' : Wrapper}
    (ht : step s (.advance w ok) = some t) (hx : s.wrappers w = some x)
    (hwrappers : t.wrappers = Function.update s.wrappers w (some x'))
    (hmap : x'.completionCallbacks = x.completionCallbacks) (htoken : x'.pc.token = x.pc.token)
    (hpc : ∀ k, x'.pc ≠ .installing k) (hlets : ∀ b, ¬ x.LetsGo w b .completions)
    (hletsInstalling : ∀ v b, ¬ x.LetsGo w b (.installing v)) : Maps t := by
  refine h.updateKeep ht hwrappers ?_ ?_ (by simpa using hpc) (by simp) ?_ ?_
  · rw [Wrappers.completionsOf_of_some hx]
    exact hmap
  · rw [Wrappers.tokenOf_of_some hx]
    exact htoken
  · simpa [LetsGo, hx] using hlets
  · simpa [LetsGo, hx] using hletsInstalling

/-- A member function starts on a resting wrapper. -/
theorem begin (h : Maps s) {a : Action} {w : ℕ} {x x' : Wrapper} (ht : step s a = some t)
    (hx : s.wrappers w = some x) (hidle : x.idle)
    (hwrappers : t.wrappers = Function.update s.wrappers w (some x'))
    (hmap : x'.completionCallbacks = x.completionCallbacks) (htoken : x'.pc.token = none)
    (hcall : ∀ v b, a ≠ .setOnCompleteCallback v b) (hlets : ∀ b o, ¬ LetsGo s b o a) :
    Maps t := by
  refine h.updateKeep ht hwrappers ?_ ?_ ?_ hcall (fun b => hlets b _) fun v b => hlets b _
  · rw [Wrappers.completionsOf_of_some hx]
    exact hmap
  · rw [Wrappers.tokenOf_of_some hx, hidle.1]
    exact htoken
  · intro k hk
    rw [Option.map_some, Option.some.injEq] at hk
    rw [hk] at htoken
    contradiction

theorem insertCompletion (h : Maps s) {w a : ℕ} {x : Wrapper} (hx : s.wrappers w = some x)
    (hidle : x.idle) (ha : s.functions.value a = none)
    (ht : step s (.setOnCompleteCallback w a) = some (insertCompletion s w a x)) :
    Maps (insertCompletion s w a x) := by
  have hpc : s.wrappers.tokenOf w = none := by
    rw [Wrappers.tokenOf_of_some hx, hidle.1]
    rfl
  have hfree (v : ℕ) : a ∉ s.wrappers.completionsOf v := fun hv => h.allocated hv ha
  have howners : (Subscription.insertCompletion s w a x).functions.owners a =
      {.completions, .installing w} := by simp [Subscription.insertCompletion]
  have hmaps {v b : ℕ} : b ∈ (Subscription.insertCompletion s w a x).wrappers.completionsOf v ↔
      (v = w ∧ b = a) ∨ b ∈ s.wrappers.completionsOf v := by
    simp only [Subscription.insertCompletion, State.setWrapper_wrappers,
      Wrappers.completionsOf_update]
    split_ifs with hv
    · rw [hv, Wrappers.completionsOf_of_some hx]
      simp
    · simp [hv]
  have htokens (v : ℕ) : (Subscription.insertCompletion s w a x).wrappers.tokenOf v =
      if v = w then some a else s.wrappers.tokenOf v := by
    simp [Subscription.insertCompletion, Pc.token]
  have hlets (b : ℕ) (o : Owner) : ¬ LetsGo s b o (.setOnCompleteCallback w a) := by simp [LetsGo]
  constructor
  · intro v u b hv hu
    rcases hmaps.mp hv with ⟨rfl, rfl⟩ | hv <;> rcases hmaps.mp hu with ⟨hu, hba⟩ | hu
    · exact hu.symm
    · exact (hfree u hu).elim
    · exact (hfree v (hba ▸ hv)).elim
    · exact h.disjoint hv hu
  · intro v b hv
    rcases hmaps.mp hv with ⟨rfl, rfl⟩ | hv
    · simp [howners]
    · exact (keeps_of_step ht (h.owned hv) (hlets _ _)).1
  · intro v b hv
    rcases hmaps.mp hv with ⟨rfl, rfl⟩ | hv
    · rw [howners]
    · exact ((ages_of_step ht).shrinks (h.allocated hv)).1.trans (h.sole hv)
  · intro v b hv
    rw [htokens]
    by_cases hb : b = a
    · subst b
      simp only [howners, Finset.mem_insert, Finset.mem_singleton, reduceCtorEq, false_or,
        Owner.installing.injEq] at hv
      rw [if_pos hv]
    · have hold := h.installer (installing_of_step ht hv (by simp [Ne.symm hb]))
      have hvw : v ≠ w := by
        rintro rfl
        rw [hpc] at hold
        contradiction
      rw [if_neg hvw, hold]
  · intro v b hv
    rw [htokens] at hv
    split_ifs at hv with hvw
    · obtain rfl := Option.some.inj hv
      exact ⟨hmaps.mpr (.inl ⟨hvw, rfl⟩), by simp [howners, hvw]⟩
    · obtain ⟨hmem, howner⟩ := h.token hv
      exact ⟨hmaps.mpr (.inr hmem), (keeps_of_step ht howner (hlets _ _)).1⟩
  · intro v k hv
    simp only [Subscription.insertCompletion, State.setWrapper_wrappers, Wrappers.pcOf_update,
      Option.map_some] at hv
    split_ifs at hv
    · obtain rfl : ⟨a, s.fresh⟩ = k := by simpa using hv
      simp [Subscription.insertCompletion]
    · have htoken : s.wrappers.tokenOf v = some k.addr := by
        simp [Wrappers.tokenOf, hv, Pc.token]
      exact (keeps_of_step ht (h.token htoken).2 (hlets _ _)).2.trans (h.value hv)

/-- A map goes from a resting wrapper `src` to `w`, whose own map is let go of. -/
theorem moved (h : Maps s) {a : Action} (ht : step s a = some t) {w src : ℕ} {x' y y' : Wrapper}
    (hy : s.wrappers src = some y) (hidle : y.pc = .idle)
    (hwrappers : t.wrappers = Function.update (Function.update s.wrappers w (some x')) src (some y'))
    (hmap : x'.completionCallbacks = y.completionCallbacks) (hpc : x'.pc = .idle)
    (hmap' : y'.completionCallbacks = ∅) (hpc' : y'.pc = .idle)
    (hw : s.wrappers.tokenOf w = none) (hcall : ∀ v b, a ≠ .setOnCompleteCallback v b)
    (hlets : ∀ b, LetsGo s b .completions a → b ∈ s.wrappers.completionsOf w)
    (hletsInstalling : ∀ v b, ¬ LetsGo s b (.installing v) a) (hne : w ≠ src) : Maps t := by
  have hsrc : s.wrappers.tokenOf src = none := by
    rw [Wrappers.tokenOf_of_some hy, hidle]
    rfl
  have hmaps (v : ℕ) : t.wrappers.completionsOf v = if v = src then ∅ else
      if v = w then s.wrappers.completionsOf src else s.wrappers.completionsOf v := by
    simp [hwrappers, hmap, hmap', Wrappers.completionsOf_of_some hy]
  have htokens (v : ℕ) : t.wrappers.tokenOf v = s.wrappers.tokenOf v := by
    simp only [hwrappers, Wrappers.tokenOf_update, Option.bind_some, hpc, hpc', Pc.token]
    split_ifs with h1 h2
    · rw [h1, hsrc]
    · rw [h2, hw]
    · rfl
  have hold {v b : ℕ} (hb : b ∈ t.wrappers.completionsOf v) :
      (v = w ∧ b ∈ s.wrappers.completionsOf src) ∨
        (v ≠ w ∧ v ≠ src ∧ b ∈ s.wrappers.completionsOf v) := by
    rw [hmaps] at hb
    split_ifs at hb with h1 h2
    · simp at hb
    · exact .inl ⟨h2, hb⟩
    · exact .inr ⟨h2, h1, hb⟩
  refine h.frame ht ?_ ?_ ?_ ?_ hcall ?_ ?_
  · intro v b hb
    rcases hold hb with ⟨_, hb⟩ | ⟨_, _, hb⟩
    · exact ⟨src, hb, .inr hsrc⟩
    · exact ⟨v, hb, .inl rfl⟩
  · intro v u b hv hu
    rcases hold hv with ⟨hvw, hv⟩ | ⟨_, hvs, hv⟩ <;> rcases hold hu with ⟨huw, hu⟩ | ⟨_, hus, hu⟩
    · exact hvw.trans huw.symm
    · exact (hus (h.disjoint hu hv)).elim
    · exact (hvs (h.disjoint hv hu)).elim
    · exact h.disjoint hv hu
  · intro v b hb
    rw [htokens] at hb
    refine ⟨hb, fun hmem => ?_, hletsInstalling v b⟩
    have hvw : v ≠ w := by
      rintro rfl
      rw [hw] at hb
      contradiction
    have hvs : v ≠ src := by
      rintro rfl
      rw [hsrc] at hb
      contradiction
    rwa [hmaps, if_neg hvs, if_neg hvw]
  · intro v b hb _
    rw [htokens, hb]
  · intro v b hb hgo
    have hbw := hlets b hgo
    rcases hold hb with ⟨_, hb⟩ | ⟨hvw, _, hb⟩
    · exact hne (h.disjoint hbw hb)
    · exact hvw (h.disjoint hb hbw)
  · intro v k hv
    simp only [hwrappers, Wrappers.pcOf_update, Option.map_some, hpc, hpc'] at hv
    split_ifs at hv
    · simp at hv
    · simp at hv
    · exact hv

/-- The wrapper `w` lets go of a part of its map, and of its token. -/
theorem shrink (h : Maps s) {a : Action} (ht : step s a = some t) {w : ℕ} {x' : Option Wrapper}
    (hwrappers : t.wrappers = Function.update s.wrappers w x')
    (hmap : x'.elim ∅ (·.completionCallbacks) ⊆ s.wrappers.completionsOf w)
    (htoken : x'.bind (·.pc.token) = none)
    (hdrop : ∀ {b}, s.wrappers.tokenOf w = some b → .installing w ∉ t.functions.owners b)
    (hcall : ∀ v b, a ≠ .setOnCompleteCallback v b)
    (hlets : ∀ b, LetsGo s b .completions a →
      b ∈ s.wrappers.completionsOf w ∧ b ∉ x'.elim ∅ (·.completionCallbacks))
    (hletsInstalling : ∀ v b, LetsGo s b (.installing v) a → v = w) : Maps t := by
  have hmaps (v : ℕ) : t.wrappers.completionsOf v =
      if v = w then x'.elim ∅ (·.completionCallbacks) else s.wrappers.completionsOf v := by
    rw [hwrappers, Wrappers.completionsOf_update]
  have htokens (v : ℕ) : t.wrappers.tokenOf v = if v = w then none else s.wrappers.tokenOf v := by
    rw [hwrappers, Wrappers.tokenOf_update, htoken]
  have hold {v b : ℕ} (hb : b ∈ t.wrappers.completionsOf v) : b ∈ s.wrappers.completionsOf v := by
    rw [hmaps] at hb
    split_ifs at hb with hv
    · exact hv ▸ hmap hb
    · exact hb
  refine h.frame ht ?_ ?_ ?_ ?_ hcall ?_ ?_
  · intro v b hb
    exact ⟨v, hold hb, .inl rfl⟩
  · intro v u b hv hu
    exact h.disjoint (hold hv) (hold hu)
  · intro v b hb
    rw [htokens] at hb
    split_ifs at hb with hv
    refine ⟨hb, fun hmem => ?_, fun hgo => hv (hletsInstalling v b hgo)⟩
    rwa [hmaps, if_neg hv]
  · intro v b hb howner
    rw [htokens]
    split_ifs with hv
    · subst v
      exact (hdrop hb howner).elim
    · exact hb
  · intro v b hb hgo
    obtain ⟨hbw, hbm⟩ := hlets b hgo
    obtain rfl := h.disjoint (hold hb) hbw
    rw [hmaps, if_pos rfl] at hb
    exact hbm hb
  · intro v k hv
    have hvw : v ≠ w := by
      rintro rfl
      have hnone := Wrappers.tokenOf_of_pcOf hv
      rw [htokens, if_pos rfl] at hnone
      contradiction
    rwa [hwrappers, Wrappers.pcOf_update, if_neg hvw] at hv

theorem moveMembers (h : Maps s) {w src : ℕ} {y : Wrapper} (hw : s.wrappers w = none)
    (hy : s.wrappers src = some y) (hidle : y.idle)
    (ht : step s (.moveConstruct w src) = some (moveMembers s w src y)) :
    Maps (moveMembers s w src y) := by
  have hne : w ≠ src := by
    rintro rfl
    rw [hw] at hy
    contradiction
  have hnew : s.wrappers.tokenOf w = none := by simp [Wrappers.tokenOf, Wrappers.pcOf, hw]
  exact h.moved ht hy hidle.1 rfl rfl hidle.1 rfl hidle.1 hnew (by simp) (by simp [LetsGo])
    (by simp [LetsGo]) hne

theorem takeRest (h : Maps s) (hl : Calls s.wrappers) {w src : ℕ} {ok : Bool} {x y : Wrapper}
    (hx : s.wrappers w = some x) (hpc : x.pc = .assignRest src) (hy : s.wrappers src = some y)
    (ht : step s (.advance w ok) = some (takeRest s w src { x with pc := .idle } y)) :
    Maps (takeRest s w src { x with pc := .idle } y) := by
  have hpcw : s.wrappers.pcOf w = some (.assignRest src) := hpc ▸ Wrappers.pcOf_of_some hx
  have hsource := Calls.source_of_assignRest hpcw
  have hrest : y.pc = .idle := by
    simpa [Wrappers.pcOf_of_some hy] using (hl.lender hsource).2
  refine h.moved ht hy hrest rfl rfl rfl rfl hrest (Wrappers.tokenOf_of_pcOf hpcw) (by simp) ?_ ?_
    (hl.source_ne hsource)
  · simp [LetsGo, hx, Wrapper.LetsGo, hpc, Wrappers.completionsOf_of_some hx]
  · simp [LetsGo, hx, Wrapper.LetsGo, hpc]

theorem endLifetime (h : Maps s) {w : ℕ} {ok : Bool} {x : Wrapper} (hx : s.wrappers w = some x)
    (hpc : x.pc = .dtorEnd) (ht : step s (.advance w ok) = some (endLifetime s w x)) :
    Maps (endLifetime s w x) := by
  have hnone : s.wrappers.tokenOf w = none := by
    rw [Wrappers.tokenOf_of_some hx, hpc]
    rfl
  refine h.shrink ht rfl (Finset.empty_subset _) rfl (by simp [hnone]) (by simp) ?_ ?_
  · simp [LetsGo, hx, Wrapper.LetsGo, hpc, Wrappers.completionsOf_of_some hx]
  · simp [LetsGo, hx, Wrapper.LetsGo, hpc]

/-- The success path of `set_on_complete_callback` leaves only the own token in the map. -/
theorem pruneOthers (h : Maps s) {w b : ℕ} {ok : Bool} {x : Wrapper} (hx : s.wrappers w = some x)
    (hpc : x.pc = .pruning b)
    (ht : step s (.advance w ok) = some (pruneOthers s w { x with pc := .idle } b)) :
    Maps (pruneOthers s w { x with pc := .idle } b) := by
  have htoken : s.wrappers.tokenOf w = some b := by
    rw [Wrappers.tokenOf_of_some hx, hpc]
    rfl
  refine h.shrink ht rfl ?_ rfl ?_ (by simp) ?_ ?_
  · rw [Wrappers.completionsOf_of_some hx]
    exact Finset.filter_subset _ _
  · rw [htoken]
    rintro c ⟨⟩
    simp [Subscription.pruneOthers]
  · simp +contextual [LetsGo, hx, Wrapper.LetsGo, hpc, Wrappers.completionsOf_of_some hx]
  · simp [LetsGo, hx, Wrapper.LetsGo, hpc]

theorem eraseToken (h : Maps s) {w b : ℕ} {ok : Bool} {x : Wrapper} (hx : s.wrappers w = some x)
    (hpc : x.pc = .erasing b)
    (ht : step s (.advance w ok) = some (eraseToken s w { x with pc := .idle } b)) :
    Maps (eraseToken s w { x with pc := .idle } b) := by
  have htoken : s.wrappers.tokenOf w = some b := by
    rw [Wrappers.tokenOf_of_some hx, hpc]
    rfl
  refine h.shrink ht rfl ?_ rfl ?_ (by simp) ?_ ?_
  · rw [Wrappers.completionsOf_of_some hx]
    exact Finset.erase_subset _ _
  · rw [htoken]
    rintro c ⟨⟩
    simp [Subscription.eraseToken]
  · have hmem := (h.token htoken).1
    rw [Wrappers.completionsOf_of_some hx] at hmem
    simpa [LetsGo, hx, Wrapper.LetsGo, hpc, Wrappers.completionsOf_of_some hx] using hmem
  · simp [LetsGo, hx, Wrapper.LetsGo, hpc]

end Maps

theorem maps_initial : Maps initial := by
  constructor <;>
    simp [initial, Wrappers.completionsOf, Wrappers.tokenOf, Wrappers.pcOf, SharedHeap.owners]

theorem Maps.step {s t : State} {a : Action} (h : Maps s) (hl : Calls s.wrappers)
    (ht : step s a = some t) : Maps t := by
  cases fires_of_step ht with
  | skip => exact h
  | insertCallback | enterSubscribe | undoInsert | dropToken | drained | deliver | callHandler
  | returnHandler | complete =>
    exact h.frameSame ht (fun _ => rfl) (fun _ => rfl) id (by simp) (by simp [LetsGo])
      (by simp [LetsGo])
  | failSubscribe =>
    exact h.frameSame ht (by simp [failSubscribe]) (by simp [failSubscribe])
      (by simp [failSubscribe]) (by simp) (by simp [LetsGo]) (by simp [LetsGo])
  | returnSubscription hc hw =>
    exact h.updateKeep ht rfl (by simp [Wrappers.completionsOf, hw])
      (by simp [Wrappers.tokenOf, Wrappers.pcOf, hw, Pc.token]) (by simp) (by simp)
      (by simp [LetsGo]) (by simp [LetsGo])
  | constructEmpty hw | constructSync hw _ =>
    exact h.updateKeep ht rfl (by simp [Wrappers.completionsOf, hw])
      (by simp [Wrappers.tokenOf, Wrappers.pcOf, hw, Pc.token]) (by simp) (by simp)
      (by simp [LetsGo]) (by simp [LetsGo])
  | moveMembers hw hy hidle => exact h.moveMembers hw hy hidle ht
  | beginUnsubscribe hx hidle | beginDestroy hx hidle =>
    exact h.begin ht hx hidle rfl rfl rfl (by simp) (by simp [LetsGo])
  | beginAssign hx hy hidle _ _ =>
    exact h.updateTwo ht hx hy rfl rfl (by simp [hidle.1, Pc.token]) (by simp) rfl rfl (by simp)
      (by simp [LetsGo]) (by simp [LetsGo])
  | insertCompletion hx hidle ha _ => exact h.insertCompletion hx hidle ha ht
  | unsubscribed hx hpc _ | unsubscribeThrow hx hpc =>
    exact h.advance ht hx rfl rfl (by simp [hpc, Pc.token]) (by simp)
      (by simp [Wrapper.LetsGo, hpc]) (by simp [Wrapper.LetsGo, hpc])
  | @resetSub w ok x p hx hp =>
    have hwrappers := resetSub_wrappers s w { x with pc := p }
    cases hpc : x.pc <;> simp only [hpc, Pc.afterReset, Option.some.injEq, reduceCtorEq] at hp
    all_goals
      subst hp
      exact h.advance ht hx hwrappers rfl (by simp [hpc, Pc.token]) (by simp)
        (by simp [Wrapper.LetsGo, hpc]) (by simp [Wrapper.LetsGo, hpc])
  | @releaseCallback w ok x p hx hp =>
    have hwrappers := releaseCallback_wrappers s w { x with pc := p }
    cases hpc : x.pc <;> simp only [hpc, Pc.afterRelease, Option.some.injEq, reduceCtorEq] at hp
    all_goals
      subst hp
      exact h.advance ht hx hwrappers rfl (by simp [hpc, Pc.token]) (by simp)
        (by simp [Wrapper.LetsGo, hpc]) (by simp [Wrapper.LetsGo, hpc])
  | endLifetime hx hpc => exact h.endLifetime hx hpc ht
  | takeSub hx hpc hy =>
    exact h.updateTwo ht hx hy (takeSub_wrappers _ _ _ _ _) rfl (by simp [hpc, Pc.token]) (by simp)
      rfl rfl (by simp) (by simp [LetsGo, hx, Wrapper.LetsGo, hpc])
      (by simp [LetsGo, hx, Wrapper.LetsGo, hpc])
  | takeRest hx hpc hy => exact h.takeRest hl hx hpc hy ht
  | @setOnCompleteCB w ok x k hx hpc =>
    unfold setOnCompleteCB at ht ⊢
    split at ht
    · exact h.advance ht hx rfl rfl (by simp [hpc, Pc.token]) (by simp)
        (by simp [Wrapper.LetsGo, hpc]) (by simp [Wrapper.LetsGo, hpc])
    · exact h.advance ht hx rfl rfl (by simp [hpc, Pc.token]) (by simp)
        (by simp [Wrapper.LetsGo, hpc]) (by simp [Wrapper.LetsGo, hpc])
  | pruneOthers hx hpc => exact h.pruneOthers hx hpc ht
  | eraseToken hx hpc => exact h.eraseToken hx hpc ht

end NatsCpp.Subscription
