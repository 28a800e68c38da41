import NatsCpp.SubscriptionCompletions

/-!
# What `set_on_complete_callback` hands to nats.c

nats.c keeps the closure of the last installation that succeeded, until it has
called it. A call that still holds its token knows how this closure relates to
it, whatever other steps come in between.
-/
namespace NatsCpp.Subscription

namespace Natives

variable (g : Natives) (n m : ℕ)

def onCompleteOf : Option Closure := (g n).bind (·.onComplete)

/-- The installed closure, until it has been called. -/
def pendingOf : Option Closure := (g n).bind fun y => if y.completed then none else y.onComplete

/-- The installed closure of a closed subscription, until it has been called. -/
def awaitedOf : Option Closure :=
  (g n).bind fun y => if y.closed = true ∧ y.completed = false then y.onComplete else none

theorem onCompleteOf_of_pendingOf {g : Natives} {n : ℕ} {k : Closure}
    (hk : g.pendingOf n = some k) : g.onCompleteOf n = some k := by
  obtain ⟨y, hy, hk⟩ := Option.bind_eq_some_iff.mp hk
  split_ifs at hk
  simp [onCompleteOf, hy, hk]

theorem pendingOf_of_awaitedOf {g : Natives} {n : ℕ} {k : Closure}
    (hk : g.awaitedOf n = some k) : g.pendingOf n = some k := by
  obtain ⟨y, hy, hk⟩ := Option.bind_eq_some_iff.mp hk
  split_ifs at hk with hclosed
  simp [pendingOf, hy, hclosed.2, hk]

end Natives

/-- The native call of `set_on_complete_callback` on `w` succeeds and hands `k` to nats.c. -/
def Installs (s : State) (a : Action) (w n : ℕ) (k : Closure) : Prop :=
  a = .advance w true ∧ s.wrappers.pcOf w = some (.installing k) ∧ s.wrappers.subOf w = some n

section Step

variable {s t : State} {a : Action}

theorem mapNative_view {β : Type} (view : Native → Option β) {n m : ℕ} {f : Native → Native}
    (hf : ∀ y, view (f y) = view y) :
    ((s.mapNative n f).natives m).bind view = (s.natives m).bind view := by
  by_cases hm : m = n
  · subst m
    simp [Option.bind_map, hf]
  · simp [hm]

theorem destroyNative_view {β : Type} (view : Native → Option β) {m : ℕ} {o : Option ℕ}
    (hview : ∀ y phase closed, view { y with phase := phase, closed := closed } = view y) :
    ((s.destroyNative o).natives m).bind view = (s.natives m).bind view := by
  cases o with
  | none => rfl
  | some n => exact mapNative_view view fun y => hview y _ _

/-- What nats.c keeps of a subscription, its phase and closing apart, changes
only with a new subscription, an installation or the call of the closure. -/
theorem view_of_step {β : Type} (view : Native → Option β) (ht : step s a = some t)
    (hview : ∀ y phase closed, view { y with phase := phase, closed := closed } = view y)
    (hnew : ∀ phase handler, view ⟨phase, handler, false, none, false⟩ = none) (n : ℕ) :
    (t.natives n).bind view = (s.natives n).bind view ∨
      (∃ w k, Installs s a w n k ∧
        t.natives n = (s.natives n).map fun y => { y with onComplete := some k }) ∨
      (a = .complete n ∧ t.natives n = (s.natives n).map fun y => { y with completed := true }) := by
  cases fires_of_step ht with
  | skip | insertCallback | undoInsert | dropToken | constructEmpty | moveMembers
  | beginUnsubscribe | beginDestroy | beginAssign | insertCompletion | unsubscribeThrow
  | endLifetime | takeRest | pruneOthers | eraseToken | deliver | callHandler | returnHandler =>
    exact .inl rfl
  | @enterSubscribe c m token hc hm =>
    left
    by_cases hnm : n = m
    · subst n
      simp [enterSubscribe, hm, hnew]
    · simp [enterSubscribe, hnm]
  | @constructSync w m hw hm =>
    left
    by_cases hnm : n = m
    · subst n
      simp [hm, hnew]
    · simp [hnm]
  | returnSubscription => exact .inl (mapNative_view view fun y => hview y _ y.closed)
  | @failSubscribe c m token hc =>
    exact .inl (destroyNative_view (s := s) (o := some m) view hview)
  | drained | unsubscribed => exact .inl (mapNative_view view fun y => hview y y.phase _)
  | resetSub => exact .inl (destroyNative_view view hview)
  | releaseCallback =>
    unfold releaseCallback
    split <;> exact .inl rfl
  | takeSub => exact .inl (destroyNative_view view hview)
  | @setOnCompleteCB w ok x k hx hpc =>
    unfold setOnCompleteCB
    split
    · rename_i m hsub
      by_cases hnm : n = m
      · subst n
        refine .inr (.inl ⟨w, k, ⟨rfl, ?_, ?_⟩, by simp⟩)
        · rw [Wrappers.pcOf_of_some hx, hpc]
        · rw [Wrappers.subOf_of_some hx, hsub]
      · exact .inl (by simp [hnm])
    · exact .inl rfl
  | @complete m y k =>
    by_cases hnm : n = m
    · subst n
      exact .inr (.inr ⟨rfl, by simp⟩)
    · exact .inl (by simp [hnm])

theorem onCompleteOf_of_step (ht : step s a = some t) (n : ℕ) :
    t.natives.onCompleteOf n = s.natives.onCompleteOf n ∨
      ∃ w k, Installs s a w n k ∧ t.natives.onCompleteOf n = some k := by
  rcases view_of_step (·.onComplete) ht (fun _ _ _ => rfl) (fun _ _ => rfl) n with
    hsame | ⟨w, k, hinstalls, hn⟩ | ⟨-, hn⟩
  · exact .inl hsame
  · cases hs : s.natives n with
    | none => exact .inl (by simp [Natives.onCompleteOf, hn, hs])
    | some y => exact .inr ⟨w, k, hinstalls, by simp [Natives.onCompleteOf, hn, hs]⟩
  · left
    cases hs : s.natives n <;> simp [Natives.onCompleteOf, hn, hs]

theorem pendingOf_of_step {n : ℕ} {k : Closure} (ht : step s a = some t)
    (hk : t.natives.pendingOf n = some k) :
    s.natives.pendingOf n = some k ∨ ∃ w, Installs s a w n k := by
  rcases view_of_step (fun y => if y.completed then none else y.onComplete) ht (fun _ _ _ => rfl)
    (fun _ _ => rfl) n with hsame | ⟨w, k', hinstalls, hn⟩ | ⟨-, hn⟩
  · exact .inl (hsame.symm.trans hk)
  · right
    have hk' := Natives.onCompleteOf_of_pendingOf hk
    cases hs : s.natives n with
    | none => simp [Natives.onCompleteOf, hn, hs] at hk'
    | some y =>
      obtain rfl : k' = k := by simpa [Natives.onCompleteOf, hn, hs] using hk'
      exact ⟨w, hinstalls⟩
  · cases hs : s.natives n <;> simp [Natives.pendingOf, hn, hs] at hk

/-- A call that holds a token held it before, or inserts or installs it in this step. -/
theorem pcOf_of_step {w b : ℕ} {p : Pc} (ht : step s a = some t) (hw : t.wrappers.pcOf w = some p)
    (hp : p.token = some b) : s.wrappers.pcOf w = some p ∨
      (s.functions.value b = none ∧ p = .installing ⟨b, s.fresh⟩) ∨
      ∃ k, s.wrappers.pcOf w = some (.installing k) ∧ k.addr = b ∧
        (p = .erasing b ∨ p = .pruning b ∧ ∃ n, Installs s a w n k) := by
  have hold {f : Wrappers} {v : ℕ} {x : Option Wrapper}
      (hf : Wrappers.pcOf (Function.update f v x) w = some p) (hx : x.bind (·.pc.token) = none) :
      f.pcOf w = some p := by
    rw [Wrappers.pcOf_update] at hf
    split_ifs at hf
    · obtain ⟨y, rfl, rfl⟩ := Option.map_eq_some_iff.mp hf
      rw [Option.bind_some, hp] at hx
      contradiction
    · exact hf
  cases fires_of_step ht with
  | skip | insertCallback | enterSubscribe | undoInsert | dropToken | drained | deliver
  | callHandler | returnHandler | complete => exact .inl hw
  | failSubscribe => exact .inl (by simpa [failSubscribe] using hw)
  | returnSubscription | constructEmpty | constructSync | beginUnsubscribe | beginDestroy
  | unsubscribed | unsubscribeThrow | endLifetime | pruneOthers | eraseToken =>
    exact .inl (hold hw rfl)
  | moveMembers _ hy hidle =>
    have hnone : Pc.token .idle = none := rfl
    exact .inl (hold (hold hw (by simp [Wrapper.emptied, hidle.1, hnone])) (by simp [hidle.1, hnone]))
  | beginAssign _ _ _ hidle _ => exact .inl (hold (hold hw (by simp [hidle.1, Pc.token])) rfl)
  | @insertCompletion v c n x hx hidle hc =>
    simp only [insertCompletion, State.setWrapper_wrappers, Wrappers.pcOf_update,
      Option.map_some] at hw
    split_ifs at hw with hv
    · subst v
      obtain rfl := Option.some.inj hw
      obtain rfl : c = b := Option.some.inj hp
      exact .inr (.inl ⟨hc, rfl⟩)
    · exact .inl hw
  | @resetSub v ok x q hx hq =>
    rw [resetSub_wrappers] at hw
    refine .inl (hold hw ?_)
    cases hpc : x.pc <;> simp only [hpc, Pc.afterReset, Option.some.injEq, reduceCtorEq] at hq <;>
      simp [← hq, Pc.token]
  | @releaseCallback v ok x q hx hq =>
    rw [releaseCallback_wrappers] at hw
    refine .inl (hold hw ?_)
    cases hpc : x.pc <;> simp only [hpc, Pc.afterRelease, Option.some.injEq, reduceCtorEq] at hq <;>
      simp [← hq, Pc.token]
  | @takeSub v src ok x y hx hpc hy =>
    simp only [takeSub_wrappers, Wrappers.pcOf_update, Option.map_some] at hw
    left
    split_ifs at hw with h1 h2
    · rw [h1, Wrappers.pcOf_of_some hy, hw]
    · obtain rfl := Option.some.inj hw
      contradiction
    · exact hw
  | @takeRest v src ok x y hx hpc hy =>
    simp only [takeRest, State.setWrapper_wrappers, dropCompletions_wrappers,
      Wrappers.pcOf_update, Option.map_some] at hw
    left
    split_ifs at hw with h1 h2
    · rw [h1, Wrappers.pcOf_of_some hy, hw]
    · obtain rfl := Option.some.inj hw
      contradiction
    · exact hw
  | @setOnCompleteCB v ok x k hx hpc =>
    have hv : s.wrappers.pcOf v = some (.installing k) := hpc ▸ Wrappers.pcOf_of_some hx
    unfold setOnCompleteCB at hw
    split at hw
    · rename_i n hsub
      rw [State.setWrapper_wrappers, Wrappers.pcOf_update] at hw
      split_ifs at hw with hwv
      · subst v
        obtain rfl := Option.some.inj hw
        obtain rfl : k.addr = b := Option.some.inj hp
        have hsub' := (Wrappers.subOf_of_some hx).trans hsub
        exact .inr (.inr ⟨k, hv, rfl, .inr ⟨rfl, n, rfl, hv, hsub'⟩⟩)
      · exact .inl hw
    · rw [State.setWrapper_wrappers, Wrappers.pcOf_update] at hw
      split_ifs at hw with hwv
      · subst v
        obtain rfl := Option.some.inj hw
        obtain rfl : k.addr = b := Option.some.inj hp
        exact .inr (.inr ⟨k, hv, rfl, .inl rfl⟩)
      · exact .inl hw

theorem onCompleteOf_of_installs {w n : ℕ} {k : Closure} (hh : Holding s) (ht : step s a = some t)
    (hi : Installs s a w n k) : t.natives.onCompleteOf n = some k ∧ t.wrappers.subOf w = some n ∧
      t.wrappers.pcOf w = some (.pruning k.addr) := by
  obtain ⟨rfl, hpc, hsub⟩ := hi
  obtain ⟨y, hy, -⟩ := Option.map_eq_some_iff.mp (hh.active hsub)
  obtain ⟨x, hx, hxsub⟩ := Option.bind_eq_some_iff.mp hsub
  have hxpc : x.pc = .installing k := by simpa [Wrappers.pcOf_of_some hx] using hpc
  simp only [step, advance, hx, hxpc, Option.some.injEq] at ht
  subst t
  refine ⟨?_, ?_, ?_⟩
  · simp [setOnCompleteCB, hxsub, Natives.onCompleteOf, hy]
  · simp [setOnCompleteCB, hxsub]
  · simp [setOnCompleteCB, hxsub]

/-- The phases of a native subscription only go forward. -/
theorem phaseOf_of_step (hh : Holding s) (ht : step s a = some t) (n : ℕ) :
    t.natives.phaseOf n = s.natives.phaseOf n ∨ s.natives n = none ∨
      (s.natives.phaseOf n = some .subscribing ∧ t.natives.phaseOf n = some .active) ∨
        t.natives.phaseOf n = some .destroyed := by
  have hdestroy (o : Option ℕ) : (s.destroyNative o).natives.phaseOf n = s.natives.phaseOf n ∨
      (s.destroyNative o).natives.phaseOf n = some .destroyed := by
    rw [State.phaseOf_destroyNative]
    split_ifs
    · cases s.natives.phaseOf n with
      | none => exact .inl rfl
      | some phase => exact .inr rfl
    · exact .inl rfl
  cases fires_of_step ht with
  | skip | insertCallback | undoInsert | dropToken | constructEmpty | moveMembers
  | beginUnsubscribe | beginDestroy | beginAssign | insertCompletion | unsubscribeThrow
  | endLifetime | takeRest | pruneOthers | eraseToken | deliver | callHandler | returnHandler =>
    exact .inl rfl
  | @enterSubscribe c m token hc hm =>
    by_cases hnm : n = m
    · exact .inr (.inl (hnm ▸ hm))
    · exact .inl (by simp [enterSubscribe, hnm])
  | @constructSync w m hw hm =>
    by_cases hnm : n = m
    · exact .inr (.inl (hnm ▸ hm))
    · exact .inl (by simp [hnm])
  | @returnSubscription c w m token hc hw =>
    by_cases hnm : n = m
    · subst n
      have hsub := (hh.subscribing hc).1
      obtain ⟨y, hy, -⟩ := Option.map_eq_some_iff.mp hsub
      exact .inr (.inr (.inl ⟨hsub, by simp [returnSubscription, dropToken, hy]⟩))
    · exact .inl (by simp [returnSubscription, dropToken, hnm])
  | @failSubscribe c m token hc =>
    rcases hdestroy (some m) with h | h
    · exact .inl h
    · exact .inr (.inr (.inr h))
  | drained | unsubscribed | complete => exact .inl (s.phaseOf_mapNative _ n fun _ => rfl)
  | @resetSub w ok x p hx hp =>
    rcases hdestroy x.sub with h | h
    · exact .inl h
    · exact .inr (.inr (.inr h))
  | releaseCallback =>
    unfold releaseCallback
    split <;> exact .inl rfl
  | @takeSub w src ok x y hx hpc hy =>
    rcases hdestroy x.sub with h | h
    · exact .inl h
    · exact .inr (.inr (.inr h))
  | setOnCompleteCB =>
    unfold setOnCompleteCB
    split
    · exact .inl (s.phaseOf_mapNative _ n fun _ => rfl)
    · exact .inl rfl

end Step

/-- What the running calls of `set_on_complete_callback` know of the closures at nats.c:
an inserted token that was not installed is none of them, and an installed one
is that of the call's own subscription. -/
structure Installed (s : State) : Prop where
  bound : ∀ {b i}, s.functions.value b = some i → i < s.fresh
  fresh : ∀ {n k}, s.natives.onCompleteOf n = some k → k.ident < s.fresh
  subscribing : ∀ {n}, s.natives.phaseOf n = some .subscribing → s.natives.onCompleteOf n = none
  spare : ∀ {w n p k}, s.wrappers.pcOf w = some p → p.token = some k.addr →
    p ≠ .pruning k.addr → s.natives.onCompleteOf n = some k →
      s.functions.value k.addr ≠ some k.ident
  pruning : ∀ {w a}, s.wrappers.pcOf w = some (.pruning a) →
    ∃ n k, s.wrappers.subOf w = some n ∧ s.natives.onCompleteOf n = some k ∧ k.addr = a

/-- A wrapper in a call of `set_on_complete_callback` is left alone by all other steps. -/
theorem wrapper_of_step {s t : State} {a : Action} (hl : Calls s.wrappers)
    (ht : step s a = some t) {w b : ℕ} {x : Wrapper} (hx : s.wrappers w = some x)
    (hb : x.pc.token = some b) (ha : ∀ ok, a ≠ .advance w ok) : t.wrappers w = some x := by
  have hnew {v : ℕ} (hv : s.wrappers v = none) : w ≠ v := by
    rintro rfl
    simp [hv] at hx
  have hbusy {v : ℕ} {y : Wrapper} (hy : s.wrappers v = some y) (hpc : y.pc.token = none) :
      w ≠ v := by
    rintro rfl
    obtain rfl := Option.some.inj (hx.symm.trans hy)
    rw [hb] at hpc
    contradiction
  have hkeep {v : ℕ} {y : Option Wrapper} {f : Wrappers} (hne : w ≠ v) (hf : f w = some x) :
      Function.update f v y w = some x := by rw [Function.update_of_ne hne, hf]
  have hadvance {v : ℕ} {ok : Bool} (h : a = .advance v ok) : w ≠ v := by
    rintro rfl
    exact ha ok h
  have hsource {v src : ℕ} {y z : Wrapper} (hy : s.wrappers v = some y)
      (hpc : y.pc.source = some src) (hz : s.wrappers src = some z) : z.pc.token = none := by
    have hidle := (hl.lender ((Wrappers.sourceOf_of_some hy).trans hpc)).2
    rw [Wrappers.pcOf_of_some hz, Option.some.injEq] at hidle
    rw [hidle]
    rfl
  cases fires_of_step ht with
  | skip | insertCallback | enterSubscribe | undoInsert | dropToken | drained | deliver
  | callHandler | returnHandler | complete => exact hx
  | failSubscribe => simpa [failSubscribe] using hx
  | returnSubscription _ hv => exact hkeep (hnew hv) hx
  | constructEmpty hv | constructSync hv => exact hkeep (hnew hv) hx
  | moveMembers hv hy hidle =>
    exact hkeep (hbusy hy (by rw [hidle.1]; rfl)) (hkeep (hnew hv) hx)
  | beginUnsubscribe hy hidle | beginDestroy hy hidle | insertCompletion hy hidle =>
    exact hkeep (hbusy hy (by rw [hidle.1]; rfl)) hx
  | beginAssign hy hz hidle hidle' =>
    exact hkeep (hbusy hz (by rw [hidle'.1]; rfl)) (hkeep (hbusy hy (by rw [hidle.1]; rfl)) hx)
  | unsubscribed | unsubscribeThrow | endLifetime | pruneOthers | eraseToken =>
    exact hkeep (hadvance rfl) hx
  | resetSub => simpa [resetSub] using hkeep (hadvance rfl) hx
  | releaseCallback =>
    rw [releaseCallback_wrappers]
    exact hkeep (hadvance rfl) hx
  | takeSub hy hpc hz =>
    simpa [takeSub] using
      hkeep (hbusy hz (hsource hy (by rw [hpc]; rfl) hz)) (hkeep (hadvance rfl) hx)
  | takeRest hy hpc hz =>
    exact hkeep (hbusy hz (hsource hy (by rw [hpc]; rfl) hz)) (hkeep (hadvance rfl) hx)
  | setOnCompleteCB =>
    unfold setOnCompleteCB
    split <;> exact hkeep (hadvance rfl) hx

/-- A call that holds a token keeps its subscription. -/
theorem subOf_of_step {s t : State} {a : Action} {w b : ℕ} {p : Pc} (hl : Calls s.wrappers)
    (ht : step s a = some t) (hw : s.wrappers.pcOf w = some p) (hp : p.token = some b) :
    t.wrappers.subOf w = s.wrappers.subOf w := by
  obtain ⟨x, hx, rfl⟩ := Option.map_eq_some_iff.mp hw
  have hkeep {x' y : Wrapper} (hy : s.wrappers w = some y) (hsame : x'.sub = y.sub) :
      Wrappers.subOf (Function.update s.wrappers w (some x')) w = s.wrappers.subOf w := by
    rw [Wrappers.subOf_update, if_pos rfl, Option.bind_some, hsame, Wrappers.subOf_of_some hy]
  have hnot {y : Wrapper} (hy : s.wrappers w = some y) (hpc : y.pc.token = none) : False := by
    obtain rfl := Option.some.inj (hx.symm.trans hy)
    rw [hp] at hpc
    contradiction
  by_cases ha : ∀ ok, a ≠ .advance w ok
  · rw [Wrappers.subOf_of_some (wrapper_of_step hl ht hx hp ha), Wrappers.subOf_of_some hx]
  · -- The call's own steps: its native call and the pruning of the map.
    obtain ⟨ok, hok⟩ := not_forall.mp ha
    obtain rfl := not_not.mp hok
    cases fires_of_step ht with
    | skip => rfl
    | unsubscribed hy hpc | unsubscribeThrow hy hpc | endLifetime hy hpc | takeSub hy hpc
    | takeRest hy hpc => exact (hnot hy (by rw [hpc]; rfl)).elim
    | @resetSub _ _ y q hy hq =>
      refine (hnot hy ?_).elim
      cases hpc : y.pc <;> simp only [hpc, Pc.afterReset, reduceCtorEq] at hq <;> rfl
    | releaseCallback hy _ =>
      rw [releaseCallback_wrappers]
      exact hkeep hy rfl
    | setOnCompleteCB hy _ =>
      unfold setOnCompleteCB
      split <;> exact hkeep hy rfl
    | pruneOthers hy _ | eraseToken hy _ => exact hkeep hy rfl

theorem installed_initial : Installed initial := by
  constructor <;> simp [initial, Natives.onCompleteOf, Wrappers.pcOf, SharedHeap.value]

theorem Installed.step {s t : State} {a : Action} (h : Installed s) (hl : Calls s.wrappers)
    (hh : Holding s) (hh' : Holding t) (hm : Maps s) (ht : step s a = some t) : Installed t := by
  have hages := ages_of_step ht
  have hfresh {n : ℕ} {k : Closure} (hk : t.natives.onCompleteOf n = some k) :
      k.ident < s.fresh := by
    rcases onCompleteOf_of_step ht n with hsame | ⟨w, k', hi, hk'⟩
    · exact h.fresh (hsame.symm.trans hk)
    · obtain rfl : k' = k := Option.some.inj (hk'.symm.trans hk)
      exact h.bound (hm.value hi.2.1)
  constructor
  · intro b i hb
    rcases hages.bound hb with hold | hnew
    · exact (h.bound hold).trans_le hages.fresh_le
    · exact hnew
  · intro n k hk
    exact (hfresh hk).trans_le hages.fresh_le
  · intro n hn
    rcases onCompleteOf_of_step ht n with hsame | ⟨w, k, hi, -⟩
    · rw [hsame]
      rcases phaseOf_of_step hh ht n with hphase | hnone | ⟨-, hactive⟩ | hdestroyed
      · exact h.subscribing (hphase.symm.trans hn)
      · simp [Natives.onCompleteOf, hnone]
      · rw [hactive] at hn
        contradiction
      · rw [hdestroyed] at hn
        contradiction
    · have hactive := hh'.active (onCompleteOf_of_installs hh ht hi).2.1
      rw [hactive] at hn
      contradiction
  · intro w n p k hw hp hprune hk hvalue
    have hold := hages.old hvalue (hfresh hk)
    -- The closure was at nats.c before, or it is the token that `w` itself installs.
    have hspare {q : Pc} (hq : s.wrappers.pcOf w = some q) (htoken : q.token = some k.addr)
        (hne : q ≠ .pruning k.addr) : False := by
      rcases onCompleteOf_of_step ht n with hsame | ⟨v, k', hi, hk'⟩
      · exact h.spare hq htoken hne (hsame.symm.trans hk) hold
      · obtain rfl : k' = k := Option.some.inj (hk'.symm.trans hk)
        have hv : s.wrappers.tokenOf v = some k'.addr := by
          simp [Wrappers.tokenOf, hi.2.1, Pc.token]
        have hw' : s.wrappers.tokenOf w = some k'.addr := by simp [Wrappers.tokenOf, hq, htoken]
        obtain rfl := hm.disjoint (hm.token hv).1 (hm.token hw').1
        have hpc := (onCompleteOf_of_installs hh ht hi).2.2
        rw [hw] at hpc
        exact hprune (Option.some.inj hpc)
    rcases pcOf_of_step ht hw hp with hq | ⟨hfree, -⟩ | ⟨k', hpc, hkb, rfl | ⟨rfl, -⟩⟩
    · exact hspare hq hp hprune
    · rw [hfree] at hold
      contradiction
    · exact hspare hpc (congrArg some hkb) (by simp)
    · exact hprune rfl
  · intro w b hw
    rcases pcOf_of_step ht hw rfl with hold | ⟨-, hnew⟩ | ⟨k, hpc, hkb, herase | ⟨-, n, hi⟩⟩
    · obtain ⟨n, k, hsub, hk, hkb⟩ := h.pruning hold
      refine ⟨n, k, (subOf_of_step hl ht hold rfl).trans hsub, ?_, hkb⟩
      rcases onCompleteOf_of_step ht n with hsame | ⟨v, k', hi, -⟩
      · exact hsame.trans hk
      · obtain rfl := hh.unique hsub hi.2.2
        have hpc := hold.symm.trans hi.2.1
        simp at hpc
    · contradiction
    · contradiction
    · obtain ⟨hk, hsub, -⟩ := onCompleteOf_of_installs hh ht hi
      exact ⟨n, k, hsub, hk, hkb⟩

end NatsCpp.Subscription
