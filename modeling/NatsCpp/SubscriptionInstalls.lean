import NatsCpp.SubscriptionClosing

/-!
# The last callback that was installed

A wrapper's map has the token of the last installation on its subscription and,
while a call of `set_on_complete_callback` runs, that of the call; only between
its native call and the pruning it may have others. The map follows the
subscription through all moves.
-/
namespace NatsCpp.Subscription

section Step

variable {s t : State} {a : Action}

/-- A token is new in a map, or was in some map before. -/
theorem exists_completionsOf_of_step (ht : step s a = some t) {v b : ℕ}
    (hb : b ∈ t.wrappers.completionsOf v) : (∃ u, b ∈ s.wrappers.completionsOf u) ∨
      a = .setOnCompleteCallback v b := by
  have hold {z : ℕ} {y : Wrapper} (hy : s.wrappers z = some y) (hb : b ∈ y.completionCallbacks) :
      ∃ u, b ∈ s.wrappers.completionsOf u :=
    ⟨z, by rwa [Wrappers.completionsOf_of_some hy]⟩
  have hone {w z : ℕ} {x : Option Wrapper} {y : Wrapper} (hy : s.wrappers z = some y)
      (hb : b ∈ Wrappers.completionsOf (Function.update s.wrappers w x) v)
      (hx : b ∈ x.elim ∅ (·.completionCallbacks) → b ∈ y.completionCallbacks) :
      ∃ u, b ∈ s.wrappers.completionsOf u := by
    rw [Wrappers.completionsOf_update] at hb
    split_ifs at hb
    · exact hold hy (hx hb)
    · exact ⟨v, hb⟩
  have htwo {w w' z z' : ℕ} {x x' : Option Wrapper} {y y' : Wrapper} (hy : s.wrappers z = some y)
      (hy' : s.wrappers z' = some y')
      (hb : b ∈ Wrappers.completionsOf (Function.update (Function.update s.wrappers w x) w' x') v)
      (hx : b ∈ x.elim ∅ (·.completionCallbacks) → b ∈ y.completionCallbacks)
      (hx' : b ∈ x'.elim ∅ (·.completionCallbacks) → b ∈ y'.completionCallbacks) :
      ∃ u, b ∈ s.wrappers.completionsOf u := by
    rw [Wrappers.completionsOf_update] at hb
    split_ifs at hb
    · exact hold hy' (hx' hb)
    · exact hone hy hb hx
  cases fires_of_step ht with
  | skip | insertCallback | enterSubscribe | undoInsert | dropToken | drained | deliver
  | callHandler | returnHandler | complete => exact .inl ⟨v, hb⟩
  | failSubscribe => exact .inl ⟨v, by simpa [failSubscribe] using hb⟩
  | returnSubscription | constructEmpty | constructSync =>
    simp only [returnSubscription, dropToken, State.setWrapper_wrappers,
      Wrappers.completionsOf_update] at hb
    split_ifs at hb
    · simp at hb
    · exact .inl ⟨v, hb⟩
  | moveMembers _ hy => exact .inl (htwo hy hy hb id (by simp [Wrapper.emptied]))
  | beginUnsubscribe hx | beginDestroy hx | unsubscribed hx | unsubscribeThrow hx =>
    exact .inl (hone hx hb id)
  | endLifetime hx => exact .inl (hone hx hb (by simp))
  | beginAssign hx hy => exact .inl (htwo hx hy hb id id)
  | @insertCompletion w c n x hx =>
    simp only [insertCompletion, State.setWrapper_wrappers, Wrappers.completionsOf_update,
      Option.elim_some] at hb
    split_ifs at hb with hv
    · subst v
      rcases Finset.mem_insert.mp hb with rfl | hb
      · exact .inr rfl
      · exact .inl (hold hx hb)
    · exact .inl ⟨v, hb⟩
  | resetSub hx =>
    rw [resetSub_wrappers] at hb
    exact .inl (hone hx hb id)
  | releaseCallback hx =>
    rw [releaseCallback_wrappers] at hb
    exact .inl (hone hx hb id)
  | takeSub hx _ hy =>
    rw [takeSub_wrappers] at hb
    exact .inl (htwo hx hy hb id id)
  | takeRest hx _ hy => exact .inl (htwo hy hy hb id (by simp))
  | setOnCompleteCB hx =>
    unfold setOnCompleteCB at hb
    split at hb
    · exact .inl (hone hx hb id)
    · exact .inl (hone hx hb id)
  | pruneOthers hx => exact .inl (hone hx hb (Finset.mem_of_mem_filter b))
  | eraseToken hx => exact .inl (hone hx hb Finset.mem_of_mem_erase)

/-- A map that lets go of a token does not own it afterwards. -/
theorem notMem_owners_of_letsGo (ht : step s a = some t) {b : ℕ}
    (hgo : LetsGo s b .completions a) : .completions ∉ t.functions.owners b := by
  match a with
  | .advance w ok =>
    obtain ⟨x, hx, hgo⟩ := hgo
    cases hpc : x.pc <;> simp only [Wrapper.LetsGo, hpc] at hgo
    case dtorEnd =>
      simp only [step, advance, hx, hpc, Option.some.injEq] at ht
      subst t
      simp [endLifetime, hgo]
    case assignRest src =>
      simp only [step, advance, hx, hpc] at ht
      obtain ⟨y, -, rfl⟩ := Option.map_eq_some_iff.mp ht
      simp [takeRest, hgo]
    case pruning c =>
      simp only [step, advance, hx, hpc, Option.some.injEq] at ht
      subst t
      simp [pruneOthers, hgo]
    case erasing c =>
      simp only [step, advance, hx, hpc, Option.some.injEq] at ht
      subst t
      simp [eraseToken, hgo]

end Step

/-- Two subscriptions do not have one map. -/
theorem mapFor_unique {s : State} (hl : Calls s.wrappers) {v n m : ℕ}
    (hn : s.wrappers.MapFor v n) (hm : s.wrappers.MapFor v m) : n = m := by
  obtain ⟨u, hu, huv⟩ := hn
  obtain ⟨u', hu', huv'⟩ := hm
  -- A map at the source of a move assignment goes with the target alone.
  have hsource {u u' : ℕ} (hu : u ≠ v) (huv : s.wrappers.home u = v)
      (huv' : s.wrappers.home u' = v) (hsub : s.wrappers.subOf u' ≠ none) : u = u' := by
    have hborrow := Wrappers.sourceOf_of_home huv hu
    by_cases hne : u' = v
    · subst u'
      unfold Wrappers.home at huv
      cases hrest : (s.wrappers.pcOf u).bind Pc.rest with
      | none =>
        rw [hrest] at huv
        exact (hu huv).elim
      | some src =>
        obtain ⟨p, hp, hpr⟩ := Option.bind_eq_some_iff.mp hrest
        rw [hrest] at huv
        obtain rfl : src = v := huv
        cases p <;> simp only [Pc.rest, Option.some.injEq, reduceCtorEq] at hpr
        subst hpr
        exact (hsub (hl.emptied hp)).elim
    · exact hl.unique hborrow (Wrappers.sourceOf_of_home huv' hne)
  have heq : u = u' := by
    by_cases hne : u = v
    · by_cases hne' : u' = v
      · exact hne.trans hne'.symm
      · exact (hsource hne' huv' huv (by simp [hu])).symm
    · exact hsource hne huv huv' (by simp [hu'])
  subst u'
  exact Option.some.inj (hu.symm.trans hu')

/-- The map of a subscription has the token that nats.c holds, alive, and apart from the
token of a running call no other, unless that call has still to prune. -/
structure Exact (s : State) : Prop where
  current : ∀ {w n k}, s.wrappers.subOf w = some n → s.natives.onCompleteOf n = some k →
    k.addr ∈ s.wrappers.completionsOf (s.wrappers.home w) ∧
      s.functions.value k.addr = some k.ident
  only : ∀ {w n b}, s.wrappers.subOf w = some n →
    b ∈ s.wrappers.completionsOf (s.wrappers.home w) →
      (∃ c, s.wrappers.pcOf w = some (.pruning c)) ∨ s.wrappers.tokenOf w = some b ∨
        (s.natives.onCompleteOf n).map (·.addr) = some b

namespace Exact

variable {s t : State} {a : Action}

theorem current_of_step (h : Exact s) (hp : Pending s) (hp' : Pending t) (ht : step s a = some t)
    {w n : ℕ} {k : Closure} (hw : t.wrappers.subOf w = some n)
    (hk : t.natives.onCompleteOf n = some k) :
    k.addr ∈ t.wrappers.completionsOf (t.wrappers.home w) ∧
      t.functions.value k.addr = some k.ident := by
  have hactive := hp'.holding.active hw
  have hhome {v : ℕ} (hv : t.wrappers.MapFor v n) : t.wrappers.home w = v := by
    obtain ⟨u, hu, huv⟩ := hv
    rw [hp'.holding.unique hw hu, huv]
  rcases onCompleteOf_of_step ht n with hsame | ⟨v, k', hi, hk'⟩
  · have hold := hsame.symm.trans hk
    have hactive' : s.natives.phaseOf n = some .active := by
      rcases phaseOf_of_step hp.holding ht n with hphase | hnone | ⟨hsub, -⟩ | hdestroyed
      · exact hphase.symm.trans hactive
      · simp [Natives.onCompleteOf, hnone] at hold
      · rw [hp.installed.subscribing hsub] at hold
        contradiction
      · rw [hdestroyed] at hactive
        contradiction
    obtain ⟨u, hu⟩ := hp.holding.held hactive'
    obtain ⟨hmem, hvalue⟩ := h.current hu hold
    have hfor : s.wrappers.MapFor (s.wrappers.home u) n := ⟨u, hu, rfl⟩
    have hkeep : ¬ LetsGo s k.addr .completions a := by
      intro hgo
      refine not_mapFor_of_dropsMap hp.calls hp.holding hp.maps hmem
        (dropsMap_of_letsGo hp.maps hp.installed hold hmem hvalue (fun m => ?_) hgo) hfor
      constructor
      · exact fun hm => ⟨mapFor_unique hp.calls hm hfor, hactive'⟩
      · rintro ⟨rfl, -⟩
        exact hfor
    obtain ⟨v, hmem', hfollows⟩ := follows_of_step hp.calls hp.holding hp'.holding ht hmem hkeep
    rw [hhome ((hfollows n).2 hfor hactive)]
    exact ⟨hmem', (keeps_of_step ht (hp.maps.owned hmem) hkeep).2.trans hvalue⟩
  · obtain rfl : k' = k := Option.some.inj (hk'.symm.trans hk)
    rcases hp.tracked_of_installs ht hp'.holding hp'.calls hp'.maps hi with
      ⟨u, hmem, hvalue, hfor⟩ | ⟨hdestroyed, -⟩
    · rw [hhome ((hfor n).mpr ⟨rfl, hactive⟩)]
      exact ⟨hmem, hvalue⟩
    · rw [hdestroyed] at hactive
      contradiction

/-- A token in the map after the step was in it before, or its call is under way. -/
theorem mem_before (hp : Pending s) (hp' : Pending t) (ht : step s a = some t) {w n b : ℕ}
    (hw : t.wrappers.subOf w = some n) (hb : b ∈ t.wrappers.completionsOf (t.wrappers.home w)) :
    (∃ u, s.wrappers.subOf u = some n ∧ b ∈ s.wrappers.completionsOf (s.wrappers.home u)) ∨
      a = .setOnCompleteCallback (t.wrappers.home w) b := by
  rcases exists_completionsOf_of_step ht hb with ⟨v, hv⟩ | hset
  · left
    have hkeep : ¬ LetsGo s b .completions a := fun hgo =>
      notMem_owners_of_letsGo ht hgo (hp'.maps.owned hb)
    obtain ⟨v', hv', hfollows⟩ := follows_of_step hp.calls hp.holding hp'.holding ht hv hkeep
    rw [hp'.maps.disjoint hv' hb] at hfollows
    obtain ⟨u, hu, rfl⟩ := (hfollows n).1 ⟨w, hw, rfl⟩
    exact ⟨u, hu, hv⟩
  · exact .inr hset

/-- The call that has a token in the map goes on. -/
theorem only_of_call (hp : Pending s) (ht : step s a = some t) {w n b c : ℕ} {x : Wrapper}
    (hx : s.wrappers w = some x) (hw : s.wrappers.subOf w = some n) (hc : x.pc.token = some c)
    (hcb : x.pc = .pruning c ∨ c = b)
    (hsame : t.natives.onCompleteOf n = s.natives.onCompleteOf n)
    (hb : b ∈ t.wrappers.completionsOf (t.wrappers.home w)) :
    (∃ c, t.wrappers.pcOf w = some (.pruning c)) ∨ t.wrappers.tokenOf w = some b ∨
      (t.natives.onCompleteOf n).map (·.addr) = some b := by
  by_cases ha : ∀ ok, a ≠ .advance w ok
  · have hx' := wrapper_of_step hp.calls ht hx hc ha
    rcases hcb with hpruning | rfl
    · exact .inl ⟨c, by rw [Wrappers.pcOf_of_some hx', hpruning]⟩
    · exact .inr (.inl ((Wrappers.tokenOf_of_some hx').trans hc))
  · obtain ⟨ok, rfl⟩ := not_forall_not.mp ha
    cases hpc : x.pc <;> simp only [hpc, Pc.token, Option.some.injEq, reduceCtorEq] at hc
    case installing k =>
      obtain rfl : k.addr = b := by simpa [hpc, hc] using hcb
      simp only [step, advance, hx, hpc, Option.some.injEq] at ht
      subst t
      unfold setOnCompleteCB
      split
      · exact .inl ⟨k.addr, by simp⟩
      · exact .inr (.inl (by simp [Pc.token]))
    case pruning d =>
      subst d
      obtain ⟨m, k, hsub, hk, rfl⟩ := hp.installed.pruning (hpc ▸ Wrappers.pcOf_of_some hx)
      obtain rfl : m = n := Option.some.inj (hsub.symm.trans hw)
      simp only [step, advance, hx, hpc, Option.some.injEq] at ht
      subst t
      have hhome : (pruneOthers s w { x with pc := .idle } k.addr).wrappers.home w = w := by
        simp [pruneOthers, Wrappers.home, Pc.rest]
      rw [hhome] at hb
      obtain rfl : b = k.addr := by
        simp only [pruneOthers, State.setWrapper_wrappers, Wrappers.completionsOf_update, if_true,
          Option.elim_some, Finset.mem_filter] at hb
        exact hb.2
      exact .inr (.inr (by rw [hsame, hk]; rfl))
    case erasing d =>
      obtain rfl : d = b := by simpa [hpc, hc] using hcb
      simp only [step, advance, hx, hpc, Option.some.injEq] at ht
      subst t
      have hhome : (eraseToken s w { x with pc := .idle } d).wrappers.home w = w := by
        simp [eraseToken, Wrappers.home, Pc.rest]
      rw [hhome] at hb
      simp [eraseToken] at hb

/-- A call that inserts its token has it until it returns. -/
theorem tokenOf_of_insert (hp' : Pending t) {v w b : ℕ} (hv : t.wrappers.home w = v)
    (ht : step s (.setOnCompleteCallback v b) = some t) (hb : b ∈ t.wrappers.completionsOf v) :
    t.wrappers.tokenOf w = some b := by
  simp only [step, setOnCompleteCallback] at ht
  split_ifs at ht with hfree
  have hvalue : s.functions.value b = none := by simpa using hfree
  obtain ⟨x, hx, hidle, heq⟩ := enter_eq_some ht
  split at heq
  · subst t
    exact (hp'.maps.allocated hb hvalue).elim
  · have hpc : t.wrappers.pcOf v = some (.installing ⟨b, s.fresh⟩) := by simp [heq, insertCompletion]
    by_cases hne : w = v
    · rw [hne, Wrappers.tokenOf, hpc]
      rfl
    · rw [(hp'.calls.lender (Wrappers.sourceOf_of_home hv hne)).2] at hpc
      simp at hpc

theorem only_of_step (h : Exact s) (hp : Pending s) (hp' : Pending t) (ht : step s a = some t)
    {w n b : ℕ} (hw : t.wrappers.subOf w = some n)
    (hb : b ∈ t.wrappers.completionsOf (t.wrappers.home w)) :
    (∃ c, t.wrappers.pcOf w = some (.pruning c)) ∨ t.wrappers.tokenOf w = some b ∨
      (t.natives.onCompleteOf n).map (·.addr) = some b := by
  rcases onCompleteOf_of_step ht n with hsame | ⟨v, k, hi, -⟩
  · rcases mem_before hp hp' ht hw hb with ⟨u, hu, hub⟩ | rfl
    · -- The call that is under way at `u` keeps its subscription, so `u` is `w`.
      have hcall {c : ℕ} {p : Pc} (hpc : s.wrappers.pcOf u = some p) (hc : p.token = some c)
          (hcb : p = .pruning c ∨ c = b) :
          (∃ c, t.wrappers.pcOf w = some (.pruning c)) ∨ t.wrappers.tokenOf w = some b ∨
            (t.natives.onCompleteOf n).map (·.addr) = some b := by
        have hu' := (subOf_of_step hp.calls ht hpc hc).trans hu
        obtain rfl := hp'.holding.unique hu' hw
        obtain ⟨x, hx, rfl⟩ := Option.map_eq_some_iff.mp hpc
        exact only_of_call hp ht hx hu hc hcb hsame hb
      rcases h.only hu hub with ⟨c, hc⟩ | htoken | hcurrent
      · exact hcall hc rfl (.inl rfl)
      · obtain ⟨p, hpc, hc⟩ := Option.bind_eq_some_iff.mp htoken
        exact hcall hpc hc (.inr rfl)
      · exact .inr (.inr (by rw [hsame, hcurrent]))
    · exact .inr (.inl (tokenOf_of_insert hp' rfl ht hb))
  · obtain ⟨-, hsub, hpc⟩ := onCompleteOf_of_installs hp.holding ht hi
    obtain rfl := hp'.holding.unique hsub hw
    exact .inl ⟨k.addr, hpc⟩

end Exact

theorem exact_invariant : machine.Invariant Machine.Free (fun s => Pending s ∧ Exact s) := by
  refine pending_invariant.and (fun _ _ h => h) ?_ ?_
  · constructor <;> simp [machine, initial, Wrappers.subOf]
  · intro s a t hp h _ ht
    have hp' := pending_invariant.step hp trivial ht
    exact ⟨fun hw hk => h.current_of_step hp hp' ht hw hk,
      fun hw hb => h.only_of_step hp hp' ht hw hb⟩

end NatsCpp.Subscription

namespace NatsCpp.LastInstall
open Subscription

/-! ## The history of the installations -/

/-- `installed n` is the token of the last `natsSubscription_SetOnCompleteCB` on `n`
that succeeded. -/
structure State where
  base : Subscription.State
  installed : ℕ → Option Closure

/-- Records the native call that is the next effect of a wrapper, if it succeeds. -/
def record (s : State) : Action → ℕ → Option Closure
  | .advance w true =>
    match s.base.wrappers.pcOf w, s.base.wrappers.subOf w with
    | some (.installing k), some n => Function.update s.installed n (some k)
    | _, _ => s.installed
  | _ => s.installed

def step (s : State) (a : Action) : Option State :=
  (Subscription.step s.base a).map fun base => ⟨base, record s a⟩

def machine : Machine State Action := ⟨⟨initial, fun _ => none⟩, step⟩

/-- The owner of a native subscription has exactly the token of the last installation when
no call runs on it; nats.c holds this token and finds it in the map, alive, at every point
of a call, and a native call that fails changes nothing. -/
structure OwnsLast (s : State) : Prop where
  held : ∀ n, s.base.natives.onCompleteOf n = s.installed n
  idle : ∀ {w n x}, s.base.wrappers w = some x → x.idle → x.sub = some n →
    x.completionCallbacks = (s.installed n).elim ∅ fun k => {k.addr}
  present : ∀ {w n x k}, s.base.wrappers w = some x → (∀ src, x.pc ≠ .assignRest src) →
    x.sub = some n → s.installed n = some k →
      k.addr ∈ x.completionCallbacks ∧ s.base.functions.value k.addr = some k.ident
  fails : ∀ {w x k t}, s.base.wrappers w = some x → x.pc = .installing k →
    step s (.advance w false) = some t →
      t.installed = s.installed ∧ t.base.natives = s.base.natives ∧
        t.base.functions = s.base.functions

/-- What every run keeps. -/
structure Inv (s : State) : Prop where
  pending : Pending s.base
  exact : Exact s.base
  held : ∀ n, s.base.natives.onCompleteOf n = s.installed n

theorem record_of_installs {s : State} {a : Action} {w n : ℕ} {k : Closure}
    (hi : Installs s.base a w n k) : record s a = Function.update s.installed n (some k) := by
  obtain ⟨rfl, hpc, hsub⟩ := hi
  simp only [record, hpc, hsub]

/-- The record changes only when a token is installed. -/
theorem record_cases (s : State) (a : Action) :
    record s a = s.installed ∨ ∃ w n k, Installs s.base a w n k := by
  unfold record
  split
  · split
    · rename_i w _ _ k n hpc hsub
      exact .inr ⟨w, n, k, rfl, hpc, hsub⟩
    · exact .inl rfl
  · exact .inl rfl

theorem inv_invariant : machine.Invariant Machine.Free Inv where
  init := ⟨exact_invariant.init.1, exact_invariant.init.2, fun _ => rfl⟩
  step := by
    intro s a t h _ ht
    obtain ⟨base, hbase, rfl⟩ := Option.map_eq_some_iff.mp ht
    obtain ⟨hpending, hexact⟩ := exact_invariant.step ⟨h.pending, h.exact⟩ trivial hbase
    refine ⟨hpending, hexact, fun n => ?_⟩
    change base.natives.onCompleteOf n = record s a n
    rcases record_cases s a with hsame | ⟨w, m, k, hi⟩
    · rcases onCompleteOf_of_step hbase n with hnatives | ⟨w, k, hi, hk⟩
      · rw [hnatives, h.held, hsame]
      · rw [record_of_installs hi, Function.update_self, hk]
    · rw [record_of_installs hi, Function.update_apply]
      split_ifs with hn
      · rw [hn]
        exact (onCompleteOf_of_installs h.pending.holding hbase hi).1
      · rcases onCompleteOf_of_step hbase n with hnatives | ⟨w', k', hi', -⟩
        · rw [hnatives, h.held]
        · obtain rfl : w = w' := by simpa using hi.1.symm.trans hi'.1
          exact (hn (Option.some.inj (hi'.2.2.symm.trans hi.2.2))).elim

namespace Inv

variable {s : State}

theorem home_eq {w : ℕ} {x : Wrapper} (hx : s.base.wrappers w = some x)
    (hpc : ∀ src, x.pc ≠ .assignRest src) : s.base.wrappers.home w = w := by
  refine Wrappers.home_of_pcOf (Wrappers.pcOf_of_some hx) ?_
  cases hxpc : x.pc with
  | assignRest src => exact (hpc src hxpc).elim
  | _ => rfl

theorem present (h : Inv s) {w n : ℕ} {x : Wrapper} {k : Closure}
    (hx : s.base.wrappers w = some x) (hpc : ∀ src, x.pc ≠ .assignRest src)
    (hsub : x.sub = some n) (hk : s.installed n = some k) :
    k.addr ∈ x.completionCallbacks ∧ s.base.functions.value k.addr = some k.ident := by
  have hcurrent := h.exact.current ((Wrappers.subOf_of_some hx).trans hsub) ((h.held n).trans hk)
  rwa [home_eq hx hpc, Wrappers.completionsOf_of_some hx] at hcurrent

theorem idle (h : Inv s) {w n : ℕ} {x : Wrapper} (hx : s.base.wrappers w = some x)
    (hidle : x.idle) (hsub : x.sub = some n) :
    x.completionCallbacks = (s.installed n).elim ∅ fun k => {k.addr} := by
  have hpc : ∀ src, x.pc ≠ .assignRest src := by simp [hidle.1]
  have honly {b : ℕ} (hb : b ∈ x.completionCallbacks) :
      (s.installed n).map (·.addr) = some b := by
    rw [← Wrappers.completionsOf_of_some hx, ← home_eq hx hpc] at hb
    rcases h.exact.only ((Wrappers.subOf_of_some hx).trans hsub) hb with ⟨c, hc⟩ | htoken | hlast
    · simp [Wrappers.pcOf_of_some hx, hidle.1] at hc
    · simp [Wrappers.tokenOf_of_some hx, hidle.1, Pc.token] at htoken
    · rwa [h.held] at hlast
  cases hk : s.installed n with
  | none =>
    rw [Option.elim_none, Finset.eq_empty_iff_forall_notMem]
    intro b hb
    simpa [hk] using honly hb
  | some k =>
    rw [Option.elim_some, Finset.eq_singleton_iff_unique_mem]
    refine ⟨(h.present hx hpc hsub hk).1, fun b hb => ?_⟩
    simpa [hk, eq_comm] using honly hb

theorem fails {t : State} {w : ℕ} {x : Wrapper} {k : Closure} (hx : s.base.wrappers w = some x)
    (hpc : x.pc = .installing k) (ht : LastInstall.step s (.advance w false) = some t) :
    t.installed = s.installed ∧ t.base.natives = s.base.natives ∧
      t.base.functions = s.base.functions := by
  obtain ⟨base, hbase, rfl⟩ := Option.map_eq_some_iff.mp ht
  simp only [Subscription.step, advance, hx, hpc, Option.some.injEq] at hbase
  subst base
  exact ⟨rfl, rfl, rfl⟩

theorem ownsLast (h : Inv s) : OwnsLast s where
  held := h.held
  idle := h.idle
  present := h.present
  fails := fails

end Inv

/-- In every run, whatever the native calls answer and wherever the wrapper is moved. -/
theorem ownsLast_throughout (as : List Action) :
    machine.Throughout OwnsLast machine.init as :=
  (inv_invariant.throughout inv_invariant.init as).mono fun _ => Inv.ownsLast

end NatsCpp.LastInstall
