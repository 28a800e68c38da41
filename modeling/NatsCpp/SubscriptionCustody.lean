import NatsCpp.SubscriptionHolding

/-!
# Who lets go of a function object, and when

`LetsGo` says which owner gives up which function object in a step; everybody
else's objects survive it. With it, three more invariants of every run: the
registry is the only owner of a handler once its registration has returned, an
object's identity never comes back, and a live subscription is paired with its
handler except between the two halves of a move assignment over it.
-/
namespace NatsCpp.Subscription

/-- The owner `o` gives up the object at `b` in the wrapper's next effect. -/
def Wrapper.LetsGo (w : ℕ) (x : Wrapper) (b : ℕ) : Owner → Prop
  | .registry => x.pc.afterRelease ≠ none ∧ x.onRelease = some b
  | .registering _ => False
  | .completions =>
    match x.pc with
    | .dtorEnd | .assignRest _ => b ∈ x.completionCallbacks
    | .pruning a => b ∈ x.completionCallbacks ∧ b ≠ a
    | .erasing a => b = a
    | _ => False
  | .installing v => v = w ∧ (x.pc = .pruning b ∨ x.pc = .erasing b)

/-- The owner `o` gives up the object at `b` in this step. -/
def LetsGo (s : State) (b : ℕ) (o : Owner) : Action → Prop
  | .subscribeOk c _ => o = .registering c
  | .registerErase c => o = .registry ∧ ∃ r, s.registrations c = some r ∧ r.token.addr = b
  | .registerThrow c => o = .registering c
  | .advance w _ => ∃ x, s.wrappers w = some x ∧ x.LetsGo w b o
  | _ => False

/-- An object survives a step if one of its owners does not let go of it. -/
theorem keeps_of_step {s t : State} {a : Action} (ht : step s a = some t) :
    SharedHeap.Keeps (fun b o => ¬ LetsGo s b o a) s.functions t.functions := by
  cases fires_of_step ht with
  | skip | enterSubscribe | constructEmpty | constructSync | moveMembers | beginUnsubscribe
  | beginDestroy | beginAssign | drained | unsubscribed | unsubscribeThrow | deliver
  | callHandler | returnHandler | complete => exact .refl
  | insertCallback _ ha => exact (SharedHeap.Keeps.make ha _ _).trans (.share _ _)
  | insertCompletion _ _ ha _ => exact (SharedHeap.Keeps.make ha _ _).trans (.share _ _)
  | failSubscribe => simpa [failSubscribe] using SharedHeap.Keeps.refl
  | returnSubscription => exact .drop (by simp [LetsGo])
  | undoInsert hc => exact .drop (by simp [LetsGo, hc])
  | dropToken => exact .drop (by simp [LetsGo])
  | resetSub => simpa [resetSub] using SharedHeap.Keeps.refl
  | @releaseCallback w ok x p hx hp =>
    unfold releaseCallback
    split
    · exact .refl
    · rename_i b hkey
      exact .drop (by simpa [LetsGo, Wrapper.LetsGo, hx, hp] using hkey)
  | endLifetime hx hpc => exact .dropAll _ (by simp [LetsGo, Wrapper.LetsGo, hx, hpc])
  | takeSub => simpa [takeSub] using SharedHeap.Keeps.refl
  | takeRest hx hpc _ => exact .dropAll _ (by simp [LetsGo, Wrapper.LetsGo, hx, hpc])
  | setOnCompleteCB =>
    unfold setOnCompleteCB
    split <;> exact .refl
  | pruneOthers hx hpc | eraseToken hx hpc =>
    refine SharedHeap.Keeps.trans (.dropAll _ ?_) (.drop ?_)
    · simp [LetsGo, Wrapper.LetsGo, hx, hpc]
    · simp [LetsGo, Wrapper.LetsGo, hx, hpc]

/-- Between two states: allocated objects gain no owner, and identities are used once. -/
structure Ages (s t : State) : Prop where
  shrinks : SharedHeap.Shrinks s.functions t.functions
  fresh_le : s.fresh ≤ t.fresh
  old : ∀ {b i}, t.functions.value b = some i → i < s.fresh → s.functions.value b = some i
  bound : ∀ {b i}, t.functions.value b = some i → s.functions.value b = some i ∨ i < t.fresh

namespace Ages

variable {s t : State}

theorem of_eq (hfunctions : t.functions = s.functions) (hfresh : t.fresh = s.fresh) : Ages s t where
  shrinks := hfunctions ▸ .refl
  fresh_le := hfresh.ge
  old hb _ := hfunctions ▸ hb
  bound hb := .inl (hfunctions ▸ hb)

theorem dropAll (h : Ages s t) {u : State} {p : ℕ → Prop} [DecidablePred p] {o : Owner}
    (hfunctions : u.functions = t.functions.dropAll p o) (hfresh : u.fresh = t.fresh) :
    Ages s u where
  shrinks := hfunctions ▸ h.shrinks.dropAll p o
  fresh_le := hfresh ▸ h.fresh_le
  old hb hi := by
    rw [hfunctions, SharedHeap.value_dropAll] at hb
    split_ifs at hb
    exact h.old hb hi
  bound hb := by
    rw [hfunctions, SharedHeap.value_dropAll] at hb
    split_ifs at hb
    rw [hfresh]
    exact h.bound hb

theorem makeShare {a : ℕ} {o o' : Owner} (ha : s.functions.value a = none)
    (hfunctions : t.functions = (s.functions.make a s.fresh o).share a o')
    (hfresh : t.fresh = s.fresh + 1) : Ages s t where
  shrinks := hfunctions ▸ .makeShare ha _ _ _
  fresh_le := by omega
  old := by
    intro b i hb hi
    rw [hfunctions, SharedHeap.value_share, SharedHeap.value_make] at hb
    split_ifs at hb
    · have hnew : s.fresh = i := Option.some.inj hb
      omega
    · exact hb
  bound := by
    intro b i hb
    rw [hfunctions, SharedHeap.value_share, SharedHeap.value_make] at hb
    split_ifs at hb
    · have hnew : s.fresh = i := Option.some.inj hb
      right
      omega
    · exact .inl hb

end Ages

theorem ages_of_step {s t : State} {a : Action} (ht : step s a = some t) : Ages s t := by
  have hrefl : Ages s s := .of_eq rfl rfl
  cases fires_of_step ht with
  | skip | enterSubscribe | constructEmpty | constructSync | moveMembers | beginUnsubscribe
  | beginDestroy | beginAssign | drained | unsubscribed | unsubscribeThrow | deliver
  | callHandler | returnHandler | complete => exact .of_eq rfl rfl
  | insertCallback _ ha => exact .makeShare ha rfl rfl
  | insertCompletion _ _ ha _ => exact .makeShare ha rfl rfl
  | failSubscribe => exact .of_eq (by simp [failSubscribe]) (by simp [failSubscribe])
  | returnSubscription | undoInsert | dropToken | endLifetime | takeRest =>
    exact hrefl.dropAll rfl rfl
  | resetSub => exact .of_eq (by simp [resetSub]) (by simp [resetSub])
  | releaseCallback =>
    unfold releaseCallback
    split
    · exact .of_eq rfl rfl
    · exact hrefl.dropAll rfl rfl
  | takeSub => exact .of_eq (by simp [takeSub]) (by simp [takeSub])
  | setOnCompleteCB =>
    unfold setOnCompleteCB
    split <;> exact .of_eq rfl rfl
  | @pruneOthers w a ok x hx hpc =>
    have hdrop : Ages s (dropCompletions s fun b => b ∈ x.completionCallbacks ∧ b ≠ a) :=
      hrefl.dropAll rfl rfl
    exact hdrop.dropAll rfl rfl
  | @eraseToken w a ok x hx hpc =>
    have hdrop : Ages s (dropCompletions s (· = a)) := hrefl.dropAll rfl rfl
    exact hdrop.dropAll rfl rfl

/-- The keys after an update of one wrapper, if its new key is an old one. -/
theorem Wrappers.exists_keyOf {f : Wrappers} {w v b : ℕ} {x : Option Wrapper}
    (hx : ∀ b, x.bind (·.onRelease) = some b → ∃ u, f.keyOf u = some b)
    (hb : Wrappers.keyOf (Function.update f w x) v = some b) : ∃ u, f.keyOf u = some b := by
  rw [Wrappers.keyOf_update] at hb
  split_ifs at hb
  · exact hx b hb
  · exact ⟨v, hb⟩

section Step

variable {s t : State} {a : Action}

/-- A wrapper has its key from a registration that has just returned and given up its share,
or from a wrapper. -/
theorem exists_keyOf_of_step (ht : step s a = some t) {v b : ℕ}
    (hv : t.wrappers.keyOf v = some b) : (∃ u, s.wrappers.keyOf u = some b) ∨
      ∃ c k n, a = .subscribeOk c v ∧ s.registrations c = some ⟨k, .subscribing n⟩ ∧ k.addr = b ∧
        t.functions.owners b = (s.functions.owners b).erase (.registering c) := by
  have hold {w : ℕ} {x x' : Wrapper} (hx : s.wrappers w = some x)
      (hkey : x'.onRelease = none ∨ x'.onRelease = x.onRelease) (hb : x'.onRelease = some b) :
      ∃ u, s.wrappers.keyOf u = some b := by
    refine ⟨w, ?_⟩
    rw [Wrappers.keyOf_of_some hx]
    rcases hkey with hnone | hsame
    · simp [hnone] at hb
    · exact hsame ▸ hb
  have hone {w : ℕ} {x x' : Wrapper} (hx : s.wrappers w = some x)
      (hv : Wrappers.keyOf (Function.update s.wrappers w (some x')) v = some b)
      (hkey : x'.onRelease = none ∨ x'.onRelease = x.onRelease) :
      ∃ u, s.wrappers.keyOf u = some b := by
    rw [Wrappers.keyOf_update] at hv
    split_ifs at hv
    · exact hold hx hkey hv
    · exact ⟨v, hv⟩
  have htwo {w src z : ℕ} {x y x' y' : Wrapper} (hx : s.wrappers z = some x)
      (hy : s.wrappers src = some y)
      (hv : Wrappers.keyOf (Function.update (Function.update s.wrappers w (some x')) src
        (some y')) v = some b) (hkey : x'.onRelease = none ∨ x'.onRelease = x.onRelease)
      (hkey' : y'.onRelease = none ∨ y'.onRelease = y.onRelease) :
      ∃ u, s.wrappers.keyOf u = some b := by
    rw [Wrappers.keyOf_update, Wrappers.keyOf_update] at hv
    split_ifs at hv
    · exact hold hy hkey' hv
    · exact hold hx hkey hv
    · exact ⟨v, hv⟩
  cases fires_of_step ht with
  | skip | insertCallback | enterSubscribe | undoInsert | dropToken | drained | deliver
  | callHandler | returnHandler | complete => exact .inl ⟨v, hv⟩
  | @returnSubscription c w n token hc hw =>
    simp only [returnSubscription, dropToken, State.setWrapper_wrappers, Wrappers.keyOf_update,
      Option.bind_some] at hv
    split_ifs at hv with hvw
    · subst v
      obtain rfl := Option.some.inj hv
      exact .inr ⟨c, token, n, rfl, hc, rfl, by simp [returnSubscription, dropToken]⟩
    · exact .inl ⟨v, hv⟩
  | failSubscribe => exact .inl ⟨v, by simpa [failSubscribe] using hv⟩
  | constructEmpty | constructSync | endLifetime =>
    exact .inl (Wrappers.exists_keyOf (by simp) hv)
  | moveMembers hw hy =>
    exact .inl (htwo hy hy hv (.inr rfl) (.inl rfl))
  | beginUnsubscribe hx | beginDestroy hx | insertCompletion hx | unsubscribed hx
  | unsubscribeThrow hx | pruneOthers hx | eraseToken hx =>
    exact .inl (hone hx hv (.inr rfl))
  | beginAssign hx hy =>
    exact .inl (htwo hx hy hv (.inr rfl) (.inr rfl))
  | resetSub hx =>
    rw [resetSub_wrappers] at hv
    exact .inl (hone hx hv (.inr rfl))
  | releaseCallback hx =>
    rw [releaseCallback_wrappers] at hv
    exact .inl (hone hx hv (.inl rfl))
  | takeSub hx hpc hy =>
    rw [takeSub_wrappers] at hv
    exact .inl (htwo hx hy hv (.inr rfl) (.inr rfl))
  | takeRest hx hpc hy =>
    exact .inl (htwo hy hy hv (.inr rfl) (.inl rfl))
  | @setOnCompleteCB w ok x k hx =>
    unfold setOnCompleteCB at hv
    split at hv
    · exact .inl (hone hx hv (.inr rfl))
    · exact .inl (hone hx hv (.inr rfl))

/-- A registration is new, with a token that it shares with the registry, or it has had this
token before; it is erased where the registry lets go of the token. -/
theorem registration_of_step (ht : step s a = some t) {c : ℕ} {r : Registration}
    (hr : t.registrations c = some r) :
    (∃ q, s.registrations c = some q ∧ q.token = r.token ∧
      (r.stage = .erased → q.stage = .erased ∨ .registry ∉ t.functions.owners r.token.addr)) ∨
      (t.functions.owners r.token.addr = {.registry, .registering c} ∧ r.stage = .inserted) := by
  have hstay (hr : s.registrations c = some r) : ∃ q, s.registrations c = some q ∧
      q.token = r.token ∧
        (r.stage = .erased → q.stage = .erased ∨ .registry ∉ t.functions.owners r.token.addr) :=
    ⟨r, hr, rfl, .inl⟩
  have hrestage {d : ℕ} {q : Registration} (stage : Option Stage)
      (hq : s.registrations d = some q) (hstage : stage ≠ some .erased)
      (hr : Function.update s.registrations d (stage.map (⟨q.token, ·⟩)) c = some r) :
      ∃ q, s.registrations c = some q ∧ q.token = r.token ∧
        (r.stage = .erased → q.stage = .erased ∨ .registry ∉ t.functions.owners r.token.addr) := by
    rw [Function.update_apply] at hr
    split_ifs at hr with hd
    · obtain ⟨stage', rfl, rfl⟩ := Option.map_eq_some_iff.mp hr
      exact ⟨q, hd ▸ hq, rfl, fun he => (hstage (congrArg some he)).elim⟩
    · exact hstay hr
  cases fires_of_step ht with
  | insertCallback =>
    simp only [insertCallback, State.setRegistration_registrations, Function.update_apply] at hr
    split_ifs at hr with hd
    · obtain rfl := Option.some.inj hr
      exact .inr ⟨by simp [insertCallback, hd], rfl⟩
    · exact .inl (hstay hr)
  | undoInsert hc =>
    simp only [undoInsert, State.setRegistration_registrations, Function.update_apply] at hr
    split_ifs at hr with hd
    · obtain rfl := Option.some.inj hr
      exact .inl ⟨⟨_, .failed⟩, hd ▸ hc, rfl, fun _ => .inr (by simp [undoInsert])⟩
    · exact .inl (hstay hr)
  | enterSubscribe hc => exact .inl (hrestage (some (.subscribing _)) hc (by simp) hr)
  | returnSubscription hc | dropToken hc => exact .inl (hrestage none hc (by simp) hr)
  | failSubscribe hc =>
    exact .inl (hrestage (some .failed) hc (by simp) (by simpa [failSubscribe] using hr))
  | resetSub => exact .inl (hstay (by simpa [resetSub] using hr))
  | releaseCallback =>
    unfold releaseCallback at hr
    split at hr <;> exact .inl (hstay hr)
  | takeSub => exact .inl (hstay (by simpa [takeSub] using hr))
  | setOnCompleteCB =>
    unfold setOnCompleteCB at hr
    split at hr <;> exact .inl (hstay hr)
  | _ => exact .inl (hstay hr)

end Step

/-- A wrapper's key is the registry's own, a running registration's token is
shared with the registry only, and no longer once it has been erased. -/
structure Exclusive (s : State) : Prop where
  key : ∀ {w a}, s.wrappers.keyOf w = some a → s.functions.owners a ⊆ {.registry}
  token : ∀ {c r}, s.registrations c = some r →
    s.functions.owners r.token.addr ⊆ {.registry, .registering c}
  erased : ∀ {c r}, s.registrations c = some r → r.stage = .erased →
    .registry ∉ s.functions.owners r.token.addr

theorem exclusive_initial : Exclusive initial := by
  constructor <;> simp [initial, Wrappers.keyOf]

theorem Exclusive.step {s t : State} {a : Action} (h : Exclusive s) (hk : Correspondence s)
    (ht : step s a = some t) : Exclusive t := by
  have hages := ages_of_step ht
  have hshrinks {b : ℕ} {o : Owner} (hb : o ∈ s.functions.owners b) :
      t.functions.owners b ⊆ s.functions.owners b :=
    (hages.shrinks (SharedHeap.value_ne_none_of_owner _ hb)).1
  constructor
  · intro v b hv
    rcases exists_keyOf_of_step ht hv with ⟨u, hu⟩ | ⟨c, k, n, -, hc, rfl, howners⟩
    · exact (hshrinks (hk.owned (hk.registered hu))).trans (h.key hu)
    · -- The registration returns: only the registry's share is left.
      intro o ho
      rw [howners, Finset.mem_erase] at ho
      simpa [ho.1] using h.token hc ho.2
  · intro c r hr
    rcases registration_of_step ht hr with ⟨q, hq, htoken, -⟩ | ⟨howners, -⟩
    · rw [← htoken]
      exact (hshrinks (hk.tokenHeld hq).1).trans (h.token hq)
    · exact howners.subset
  · intro c r hr hstage hmem
    rcases registration_of_step ht hr with ⟨q, hq, htoken, hwas⟩ | ⟨-, hinserted⟩
    · rcases hwas hstage with hwas | hgone
      · rw [← htoken] at hmem
        exact h.erased hq hwas (hshrinks (hk.tokenHeld hq).1 hmem)
      · exact hgone hmem
    · rw [hinserted] at hstage
      contradiction

end NatsCpp.Subscription
