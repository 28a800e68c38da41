import NatsCpp.SubscriptionCustody

/-!
# The handler behind a delivery

A live subscription finds its handler in the registry, paired with it through
the wrapper's release closure, except in one window: `operator=` runs
`release_callback` before it destroys the subscription held so far. A handler
that is running lives until its registry entry is erased. Both facts are stated
as exact conditions on runs.
-/
namespace NatsCpp.Subscription

/-- The wrapper whose key a move assignment has still to take over. -/
def Pc.rest : Pc → Option ℕ
  | .assignRest src => some src
  | _ => none

namespace Wrappers

variable (f : Wrappers) (w v : ℕ)

/-- Between `release_callback` and `sub_ = std::move(other.sub_)` of an assignment to `w`. -/
def MidAssign : Prop := ∃ src, f.pcOf w = some (.assignSub src)

/-- The key that belongs to the subscription of `w`. -/
def pairedKey : Option ℕ := ((f.pcOf w).bind Pc.rest).elim (f.keyOf w) f.keyOf

theorem exists_keyOf_of_pairedKey {f : Wrappers} {w a : ℕ} (hw : f.pairedKey w = some a) :
    ∃ v, f.keyOf v = some a := by
  unfold pairedKey at hw
  cases hrest : (f.pcOf w).bind Pc.rest with
  | none =>
    rw [hrest] at hw
    exact ⟨w, hw⟩
  | some src =>
    rw [hrest] at hw
    exact ⟨src, hw⟩

theorem pairedKey_congr {f g : Wrappers} {w v : ℕ}
    (hrest : (g.pcOf v).bind Pc.rest = (f.pcOf w).bind Pc.rest)
    (hkey : (f.pcOf w).bind Pc.rest = none → g.keyOf v = f.keyOf w)
    (hkeys : ∀ src, (f.pcOf w).bind Pc.rest = some src → g.keyOf src = f.keyOf src) :
    g.pairedKey v = f.pairedKey w := by
  unfold pairedKey
  rw [hrest]
  cases h : (f.pcOf w).bind Pc.rest with
  | none => exact hkey h
  | some src => exact hkeys src h

theorem pairedKey_of_pcOf {f : Wrappers} {w : ℕ} {p : Pc} (hw : f.pcOf w = some p)
    (hp : p.rest = none) : f.pairedKey w = f.keyOf w := by
  simp [pairedKey, hw, hp]

/-- An update of one wrapper that keeps its key and is no step of an assignment's second half. -/
theorem pairedKey_update {x : Option Wrapper} (hkey : x.bind (·.onRelease) = f.keyOf w)
    (hrest : (x.map (·.pc)).bind Pc.rest = (f.pcOf w).bind Pc.rest) :
    pairedKey (Function.update f w x) v = f.pairedKey v := by
  have hkeys (u : ℕ) : keyOf (Function.update f w x) u = f.keyOf u := by
    rw [keyOf_update]
    split_ifs with hu
    · rw [hu, hkey]
    · rfl
  refine pairedKey_congr ?_ (fun _ => hkeys v) fun src _ => hkeys src
  rw [pcOf_update]
  split_ifs with hv
  · rw [hv, hrest]
  · rfl

end Wrappers

theorem Calls.source_of_rest {f : Wrappers} {w src : ℕ}
    (hw : (f.pcOf w).bind Pc.rest = some src) : f.sourceOf w = some src := by
  obtain ⟨p, hp, hrest⟩ := Option.bind_eq_some_iff.mp hw
  cases p <;> simp only [Pc.rest, Option.some.injEq, reduceCtorEq] at hrest
  subst hrest
  exact Calls.source_of_assignRest hp

/-- The wrapper `w` holds the key of the live object `k`, or is in the window
of an assignment and has already let the object die. -/
def Paired (s : State) (w : ℕ) (k : Closure) : Prop :=
  (s.wrappers.pairedKey w = some k.addr ∧ s.functions.value k.addr = some k.ident) ∨
    (s.wrappers.MidAssign w ∧ s.functions.value k.addr ≠ some k.ident)

structure Custody (s : State) : Prop where
  tokenFresh : ∀ {c r}, s.registrations c = some r → r.token.ident < s.fresh
  handlerFresh : ∀ {n k}, s.natives.handlerOf n = some k → k.ident < s.fresh
  paired : ∀ {w n k}, s.wrappers.subOf w = some n → s.natives.handlerOf n = some k → Paired s w k

/-- The invariants of every run on which the results about handlers rest. -/
structure WellFormed (s : State) : Prop where
  calls : Calls s.wrappers
  correspondence : Correspondence s
  holding : Holding s
  exclusive : Exclusive s
  custody : Custody s

theorem undoInsert_of_step {s t : State} {c : ℕ} (ht : step s (.registerErase c) = some t) :
    ∃ token, s.registrations c = some ⟨token, .failed⟩ ∧ t = undoInsert s c token := by
  simp only [step, registerErase] at ht
  split at ht
  · rename_i token hc
    exact ⟨token, hc, (Option.some.inj ht).symm⟩
  · contradiction

theorem dropToken_of_step {s t : State} {c : ℕ} (ht : step s (.registerThrow c) = some t) :
    ∃ token, s.registrations c = some ⟨token, .erased⟩ ∧ t = dropToken s c token := by
  simp only [step, registerThrow] at ht
  split at ht
  · rename_i token hc
    exact ⟨token, hc, (Option.some.inj ht).symm⟩
  · contradiction

theorem releaseCallback_of_step {s t : State} {w : ℕ} {ok : Bool} {x : Wrapper}
    (hx : s.wrappers w = some x) (hp : x.pc.afterRelease ≠ none)
    (ht : step s (.advance w ok) = some t) :
    ∃ p, x.pc.afterRelease = some p ∧ t = releaseCallback s w { x with pc := p } := by
  cases hpc : x.pc <;> simp only [hpc, Pc.afterRelease, ne_eq, not_true_eq_false] at hp ⊢
  all_goals
    simp only [step, advance, hx, hpc, Option.some.injEq] at ht
    exact ⟨_, rfl, ht.symm⟩

/-- The registry does not let go of what it still has afterwards. -/
theorem not_letsGo_registry {s t : State} {a : Action} {b : ℕ} (ht : step s a = some t)
    (hb : b ∈ t.callbacks) : ¬ LetsGo s b .registry a := by
  cases a with
  | registerErase c =>
    obtain ⟨token, hc, rfl⟩ := undoInsert_of_step ht
    rintro ⟨-, r, hr, rfl⟩
    obtain rfl := Option.some.inj (hc.symm.trans hr)
    simp [undoInsert] at hb
  | advance w ok =>
    rintro ⟨x, hx, hrelease, hkey⟩
    obtain ⟨p, -, rfl⟩ := releaseCallback_of_step hx hrelease ht
    simp [releaseCallback, hkey] at hb
  | _ => simp [LetsGo]

namespace Paired

variable {s t : State}

theorem persist {a : Action} {w v : ℕ} {k : Closure} (h : Paired s w k) (hk : Correspondence s)
    (hk' : Correspondence t) (ht : step s a = some t) (hfresh : k.ident < s.fresh)
    (hkey : t.wrappers.pairedKey v = s.wrappers.pairedKey w)
    (hmid : s.wrappers.MidAssign w → t.wrappers.MidAssign v) : Paired t v k := by
  rcases h with ⟨hpaired, hvalue⟩ | ⟨hw, hdead⟩
  · left
    have hpaired' := hkey.trans hpaired
    obtain ⟨u, hu⟩ := Wrappers.exists_keyOf_of_pairedKey hpaired
    obtain ⟨u', hu'⟩ := Wrappers.exists_keyOf_of_pairedKey hpaired'
    have hkeep := not_letsGo_registry ht (hk'.registered hu')
    exact ⟨hpaired', (keeps_of_step ht (hk.owned (hk.registered hu)) hkeep).2.trans hvalue⟩
  · right
    exact ⟨hmid hw, fun hvalue => hdead ((ages_of_step ht).old hvalue hfresh)⟩

/-- Outside the window the handler is registered and alive. -/
theorem registered {w : ℕ} {k : Closure} (h : Paired s w k) (hk : Correspondence s)
    (hw : ¬ s.wrappers.MidAssign w) : k.addr ∈ s.callbacks ∧ .registry ∈ s.functions.owners k.addr ∧
      s.functions.value k.addr = some k.ident := by
  rcases h with ⟨hpaired, hvalue⟩ | ⟨hmid, _⟩
  · obtain ⟨u, hu⟩ := Wrappers.exists_keyOf_of_pairedKey hpaired
    exact ⟨hk.registered hu, hk.owned (hk.registered hu), hvalue⟩
  · exact (hw hmid).elim

/-- In the window the handler is dead. -/
theorem dead {w : ℕ} {k : Closure} (h : Paired s w k) (hl : Calls s.wrappers)
    (hw : s.wrappers.MidAssign w) : s.functions.value k.addr ≠ some k.ident := by
  obtain ⟨src, hpc⟩ := hw
  rcases h with ⟨hpaired, _⟩ | ⟨_, hdead⟩
  · rw [Wrappers.pairedKey_of_pcOf hpc rfl, hl.cleared hpc rfl] at hpaired
    contradiction
  · exact hdead

end Paired

namespace Custody

variable {s t : State}

/-- Steps in which every subscription keeps the key that belongs to it. -/
theorem frame (h : Custody s) (hk : Correspondence s) (hk' : Correspondence t) {a : Action}
    (ht : step s a = some t)
    (hregs : ∀ {c r}, t.registrations c = some r →
      ∃ q, s.registrations c = some q ∧ q.token = r.token)
    (hhandler : ∀ {n k}, t.natives.handlerOf n = some k → s.natives.handlerOf n = some k)
    (hpaired : ∀ {v n k}, t.wrappers.subOf v = some n → t.natives.handlerOf n = some k →
      ∃ u, s.wrappers.subOf u = some n ∧ t.wrappers.pairedKey v = s.wrappers.pairedKey u ∧
        (s.wrappers.MidAssign u → t.wrappers.MidAssign v)) : Custody t where
  tokenFresh hr := by
    obtain ⟨q, hq, htoken⟩ := hregs hr
    have hle := (ages_of_step ht).fresh_le
    have hlt := h.tokenFresh hq
    rw [htoken] at hlt
    omega
  handlerFresh hn := by
    have hle := (ages_of_step ht).fresh_le
    have hlt := h.handlerFresh (hhandler hn)
    omega
  paired hv hn := by
    obtain ⟨u, hu, hkey, hmid⟩ := hpaired hv hn
    have hold := h.handlerFresh (hhandler hn)
    exact (h.paired hu (hhandler hn)).persist hk hk' ht hold hkey hmid

/-- A step of one wrapper that changes neither its key nor its place in an assignment. -/
theorem update (h : Custody s) (hk : Correspondence s) (hk' : Correspondence t) {a : Action}
    (ht : step s a = some t) {w : ℕ} {x : Option Wrapper}
    (hwrappers : t.wrappers = Function.update s.wrappers w x)
    (hregistrations : t.registrations = s.registrations)
    (hhandler : ∀ n, t.natives.handlerOf n = s.natives.handlerOf n)
    (hsub : ∀ n, x.bind (·.sub) = some n → s.wrappers.subOf w = some n)
    (hkey : x.bind (·.onRelease) = s.wrappers.keyOf w)
    (hrest : (x.map (·.pc)).bind Pc.rest = (s.wrappers.pcOf w).bind Pc.rest)
    (hmid : ¬ s.wrappers.MidAssign w) : Custody t := by
  refine h.frame hk hk' ht (fun hr => ⟨_, hregistrations ▸ hr, rfl⟩) (fun hn => hhandler _ ▸ hn) ?_
  intro v n k hv _
  refine ⟨v, ?_, ?_, ?_⟩
  · rw [hwrappers, Wrappers.subOf_update] at hv
    split_ifs at hv with hvw
    · rw [hvw]
      exact hsub n hv
    · exact hv
  · rw [hwrappers, Wrappers.pairedKey_update _ _ _ hkey hrest]
  · intro hv'
    have hvw : v ≠ w := by
      rintro rfl
      exact hmid hv'
    simpa [Wrappers.MidAssign, hwrappers, hvw] using hv'

/-- A wrapper at `x` goes on to `x'`, neither of them inside an assignment. -/
theorem updateCall (h : Custody s) (hk : Correspondence s) (hk' : Correspondence t) {a : Action}
    (ht : step s a = some t) {w : ℕ} {x x' : Wrapper} (hx : s.wrappers w = some x)
    (hwrappers : t.wrappers = Function.update s.wrappers w (some x'))
    (hregistrations : t.registrations = s.registrations)
    (hhandler : ∀ n, t.natives.handlerOf n = s.natives.handlerOf n)
    (hsub : x'.sub = none ∨ x'.sub = x.sub) (hkey : x'.onRelease = x.onRelease)
    (hpc : x.pc.rest = none) (hpc' : x'.pc.rest = none) (hmid : ∀ src, x.pc ≠ .assignSub src) :
    Custody t := by
  refine h.update hk hk' ht hwrappers hregistrations hhandler ?_ ?_ ?_ ?_
  · intro n hn
    rw [Wrappers.subOf_of_some hx]
    rcases hsub with hnone | hsame
    · simp [hnone] at hn
    · simpa [hsame] using hn
  · rw [Wrappers.keyOf_of_some hx]
    exact hkey
  · simp [Wrappers.pcOf_of_some hx, hpc, hpc']
  · rintro ⟨src, hsrc⟩
    rw [Wrappers.pcOf_of_some hx] at hsrc
    exact hmid src (Option.some.inj hsrc)

theorem insertCallback (h : Custody s) (hk : Correspondence s) {c a : ℕ}
    (hk' : Correspondence (insertCallback s c a))
    (ht : step s (.registerInsert c a) = some (insertCallback s c a)) :
    Custody (insertCallback s c a) where
  tokenFresh := by
    intro d r hr
    simp only [Subscription.insertCallback, State.setRegistration_registrations,
      State.setRegistration_fresh, Function.update_apply] at hr ⊢
    split_ifs at hr
    · obtain rfl := Option.some.inj hr
      simp
    · have hlt := h.tokenFresh hr
      omega
  handlerFresh hn := by
    have hlt : _ < s.fresh := h.handlerFresh hn
    exact Nat.lt_succ_of_lt hlt
  paired hv hn := (h.paired hv hn).persist hk hk' ht (h.handlerFresh hn) rfl id

theorem enterSubscribe (h : Custody s) (hh : Holding s) {c n : ℕ} {token : Closure}
    (hc : s.registrations c = some ⟨token, .inserted⟩) (hn : s.natives n = none) :
    Custody (enterSubscribe s c n token) where
  tokenFresh := by
    intro d r hr
    simp only [Subscription.enterSubscribe, State.setRegistration_registrations,
      State.setRegistration_fresh, State.setNative_registrations, State.setNative_fresh,
      Function.update_apply] at hr ⊢
    have htoken : token.ident < s.fresh := h.tokenFresh hc
    split_ifs at hr
    · obtain rfl := Option.some.inj hr
      exact htoken
    · exact h.tokenFresh hr
  handlerFresh := by
    intro m k hm
    simp only [Subscription.enterSubscribe, State.setRegistration_natives, State.setNative_natives,
      State.setRegistration_fresh, State.setNative_fresh, Natives.handlerOf_update,
      Option.bind_some] at hm ⊢
    split_ifs at hm
    · obtain rfl := Option.some.inj hm
      exact h.tokenFresh hc
    · exact h.handlerFresh hm
  paired := by
    intro v m k hv hm
    have hactive : s.natives.phaseOf m = some .active := hh.active hv
    have hne : m ≠ n := by
      rintro rfl
      simp [Natives.phaseOf, hn] at hactive
    simp only [Subscription.enterSubscribe, State.setRegistration_natives, State.setNative_natives,
      Natives.handlerOf_update, if_neg hne] at hm
    exact h.paired hv hm

theorem returnSubscription (h : Custody s) (hl : Calls s.wrappers) (hk : Correspondence s)
    (hh : Holding s) {c w n : ℕ} {token : Closure}
    (hc : s.registrations c = some ⟨token, .subscribing n⟩) (hw : s.wrappers w = none)
    (hk' : Correspondence (returnSubscription s c w n token))
    (ht : step s (.subscribeOk c w) = some (returnSubscription s c w n token)) :
    Custody (returnSubscription s c w n token) := by
  have hhandler (m : ℕ) : (Subscription.returnSubscription s c w n token).natives.handlerOf m =
      s.natives.handlerOf m := by
    simp only [Subscription.returnSubscription, State.setWrapper_natives]
    rw [State.handlerOf_mapNative]
    · rfl
    · exact fun _ => rfl
  constructor
  · intro d r hr
    by_cases hd : d = c
    · simp [Subscription.returnSubscription, dropToken, hd] at hr
    · exact h.tokenFresh (by simpa [Subscription.returnSubscription, dropToken, hd] using hr)
  · intro m k hm
    rw [hhandler] at hm
    exact h.handlerFresh hm
  · intro v m k hv hm
    rw [hhandler] at hm
    by_cases hvw : v = w
    · subst v
      obtain rfl : n = m := by
        simpa [Subscription.returnSubscription, dropToken] using hv
      obtain rfl : token = k := Option.some.inj ((hh.subscribing hc).2.symm.trans hm)
      left
      constructor
      · rw [Wrappers.pairedKey_of_pcOf (p := .idle)]
        · simp [Subscription.returnSubscription]
        · simp [Subscription.returnSubscription]
        · rfl
      · have hregistry := hk.owned (hk.inserted hc (by simp))
        exact (keeps_of_step ht hregistry (by simp [LetsGo])).2.trans (hk.tokenHeld hc).2
    · have hv' : s.wrappers.subOf v = some m := by
        simpa [Subscription.returnSubscription, dropToken, hvw] using hv
      have hpc : (Subscription.returnSubscription s c w n token).wrappers.pcOf v =
          s.wrappers.pcOf v := by
        simp [Subscription.returnSubscription, dropToken, hvw]
      refine (h.paired hv' hm).persist hk hk' ht (h.handlerFresh hm) ?_ ?_
      · refine Wrappers.pairedKey_congr (by rw [hpc]) ?_ ?_
        · simp [Subscription.returnSubscription, dropToken, hvw]
        · intro src hsrc
          have hidle := (hl.lender (Calls.source_of_rest hsrc)).2
          have hne : src ≠ w := by
            rintro rfl
            simp [Wrappers.pcOf, hw] at hidle
          simp [Subscription.returnSubscription, dropToken, hne]
      · rintro ⟨src, hsrc⟩
        exact ⟨src, hpc.trans hsrc⟩

theorem moveMembers (h : Custody s) (hl : Calls s.wrappers) (hk : Correspondence s) {w src : ℕ}
    {y : Wrapper} (hw : s.wrappers w = none) (hy : s.wrappers src = some y) (hidle : y.idle)
    (hk' : Correspondence (moveMembers s w src y))
    (ht : step s (.moveConstruct w src) = some (moveMembers s w src y)) :
    Custody (moveMembers s w src y) := by
  have hne : w ≠ src := by
    rintro rfl
    rw [hw] at hy
    contradiction
  refine h.frame hk hk' ht (fun hr => ⟨_, hr, rfl⟩) id ?_
  intro v n k hv _
  simp only [Subscription.moveMembers, Wrapper.emptied, State.setWrapper_wrappers,
    Wrappers.subOf_update, Option.bind_some] at hv
  split_ifs at hv with hvs hvw
  · subst v
    refine ⟨src, (Wrappers.subOf_of_some hy).trans hv, ?_, ?_⟩
    · have hrest : (s.wrappers.pcOf src).bind Pc.rest = none := by
        simp [Wrappers.pcOf_of_some hy, hidle.1, Pc.rest]
      refine Wrappers.pairedKey_congr ?_ ?_ ?_
      · simp [Subscription.moveMembers, hne, hrest, hidle.1, Pc.rest]
      · simp [Subscription.moveMembers, hne, Wrappers.keyOf_of_some hy]
      · simp [hrest]
    · rintro ⟨u, hu⟩
      simp [Wrappers.pcOf_of_some hy, hidle.1] at hu
  · have hpc : (Subscription.moveMembers s w src y).wrappers.pcOf v = s.wrappers.pcOf v := by
      simp [Subscription.moveMembers, hvs, hvw]
    refine ⟨v, hv, ?_, Exists.imp fun u hu => hpc.trans hu⟩
    refine Wrappers.pairedKey_congr (by rw [hpc]) ?_ ?_
    · simp [Subscription.moveMembers, hvs, hvw]
    · intro u hu
      obtain ⟨hlent, hpcu⟩ := hl.lender (Calls.source_of_rest hu)
      have huw : u ≠ w := by
        rintro rfl
        simp [Wrappers.pcOf, hw] at hpcu
      have hus : u ≠ src := by
        rintro rfl
        rw [Wrappers.lentOf_of_some hy, hidle.2] at hlent
        contradiction
      simp [Subscription.moveMembers, huw, hus]

/-- Once `release_callback` of an assignment has run, its target is in the window. -/
theorem releaseCallback (h : Custody s) (hl : Calls s.wrappers) (hk : Correspondence s)
    (hh : Holding s) (he : Exclusive s) {w : ℕ} {ok : Bool} {x : Wrapper} {p : Pc}
    (hx : s.wrappers w = some x) (hp : x.pc.afterRelease = some p)
    (hk' : Correspondence (releaseCallback s w { x with pc := p }))
    (ht : step s (.advance w ok) = some (releaseCallback s w { x with pc := p })) :
    Custody (releaseCallback s w { x with pc := p }) := by
  have hages := ages_of_step ht
  have hnatives : (Subscription.releaseCallback s w { x with pc := p }).natives = s.natives := by
    unfold Subscription.releaseCallback
    split <;> rfl
  have hregs : (Subscription.releaseCallback s w { x with pc := p }).registrations =
      s.registrations := by
    unfold Subscription.releaseCallback
    split <;> rfl
  have hbusy : s.wrappers.pcOf w ≠ some .idle := by
    rw [Wrappers.pcOf_of_some hx]
    intro hidle
    simp [Option.some.inj hidle, Pc.afterRelease] at hp
  constructor
  · intro c r hr
    rw [hregs] at hr
    exact (h.tokenFresh hr).trans_le hages.fresh_le
  · intro n k hn
    rw [hnatives] at hn
    exact (h.handlerFresh hn).trans_le hages.fresh_le
  · intro v n k hv hn
    rw [hnatives] at hn
    simp only [releaseCallback_wrappers, Wrappers.subOf_update, Option.bind_some] at hv
    split_ifs at hv with hvw
    · subst v
      have hsub : s.wrappers.subOf w = some n := (Wrappers.subOf_of_some hx).trans hv
      have hpc : ∃ src, x.pc = .assignRelease src ∧ p = .assignSub src := by
        have hreset : x.pc.withoutSub ≠ true := by
          intro hreset
          rw [hh.reset (Wrappers.pcOf_of_some hx) hreset] at hsub
          contradiction
        cases hxpc : x.pc <;> simp [hxpc, Pc.afterRelease, Pc.withoutSub] at hp hreset ⊢
        exact hp.symm
      obtain ⟨src, hxpc, rfl⟩ := hpc
      have hpcOf : s.wrappers.pcOf w = some (.assignRelease src) := by
        rw [Wrappers.pcOf_of_some hx, hxpc]
      right
      refine ⟨⟨src, by simp [releaseCallback_wrappers]⟩, ?_⟩
      rcases h.paired hsub hn with ⟨hpaired, _⟩ | ⟨⟨src', hsrc'⟩, _⟩
      · rw [Wrappers.pairedKey_of_pcOf hpcOf rfl] at hpaired
        have hkey : x.onRelease = some k.addr := (Wrappers.keyOf_of_some hx).symm.trans hpaired
        have howners : (s.functions.owners k.addr).erase .registry = ∅ := by
          rw [Finset.erase_eq_empty_iff, ← Finset.subset_singleton_iff]
          exact he.key hpaired
        simp [Subscription.releaseCallback, hkey, SharedHeap.drop, SharedHeap.value_dropAll, howners]
      · simp [hpcOf] at hsrc'
    · have hpc : (Subscription.releaseCallback s w { x with pc := p }).wrappers.pcOf v =
          s.wrappers.pcOf v := by
        simp [hvw]
      refine (h.paired hv hn).persist hk hk' ht (h.handlerFresh hn) ?_ ?_
      · refine Wrappers.pairedKey_congr (by rw [hpc]) (by simp [hvw]) ?_
        intro src hsrc
        have hne : src ≠ w := by
          rintro rfl
          exact hbusy (hl.lender (Calls.source_of_rest hsrc)).2
        simp [hne]
      · exact Exists.imp fun src hsrc => hpc.trans hsrc

theorem takeSub (h : Custody s) (hl : Calls s.wrappers) (hk : Correspondence s) {w src : ℕ}
    {ok : Bool} {x y : Wrapper} (hx : s.wrappers w = some x) (hpc : x.pc = .assignSub src)
    (hy : s.wrappers src = some y)
    (hk' : Correspondence (takeSub s w src { x with pc := .assignRest src } y))
    (ht : step s (.advance w ok) = some (takeSub s w src { x with pc := .assignRest src } y)) :
    Custody (takeSub s w src { x with pc := .assignRest src } y) := by
  have hsource : s.wrappers.sourceOf w = some src := by
    simp [Wrappers.sourceOf_of_some hx, hpc, Pc.source]
  have hne : w ≠ src := hl.source_ne hsource
  have hidle : s.wrappers.pcOf src = some .idle := (hl.lender hsource).2
  have hkeys (v : ℕ) : (Subscription.takeSub s w src { x with pc := .assignRest src } y).wrappers.keyOf v
      = s.wrappers.keyOf v := by
    rw [takeSub_wrappers]
    exact Wrappers.keyOf_updateTwo v hx hy rfl rfl
  refine h.frame hk hk' ht ?_ (by simp [Subscription.takeSub]) ?_
  · intro c r hr
    exact ⟨r, by simpa [Subscription.takeSub] using hr, rfl⟩
  · intro v n k hv _
    simp only [takeSub_wrappers, Wrappers.subOf_update, Option.bind_some] at hv
    split_ifs at hv with hvs hvw
    · subst v
      refine ⟨src, (Wrappers.subOf_of_some hy).trans hv, ?_, ?_⟩
      · rw [Wrappers.pairedKey_of_pcOf hidle rfl, ← hkeys src]
        simp [Wrappers.pairedKey, Subscription.takeSub, hne, Pc.rest]
      · rintro ⟨u, hu⟩
        simp [hidle] at hu
    · have hpcv : (Subscription.takeSub s w src { x with pc := .assignRest src } y).wrappers.pcOf v =
          s.wrappers.pcOf v := by
        simp [Subscription.takeSub, hvs, hvw]
      refine ⟨v, hv, ?_, Exists.imp fun u hu => hpcv.trans hu⟩
      exact Wrappers.pairedKey_congr (by rw [hpcv]) (fun _ => hkeys v) fun u _ => hkeys u

theorem takeRest (h : Custody s) (hl : Calls s.wrappers) (hk : Correspondence s) {w src : ℕ}
    {ok : Bool} {x y : Wrapper} (hx : s.wrappers w = some x) (hpc : x.pc = .assignRest src)
    (hy : s.wrappers src = some y)
    (hk' : Correspondence (takeRest s w src { x with pc := .idle } y))
    (ht : step s (.advance w ok) = some (takeRest s w src { x with pc := .idle } y)) :
    Custody (takeRest s w src { x with pc := .idle } y) := by
  have hpcw : s.wrappers.pcOf w = some (.assignRest src) := hpc ▸ Wrappers.pcOf_of_some hx
  have hsource := Calls.source_of_assignRest hpcw
  have hne : w ≠ src := hl.source_ne hsource
  have hnone : y.sub = none := (Wrappers.subOf_of_some hy).symm.trans (hl.emptied hpcw)
  refine h.frame hk hk' ht (fun hr => ⟨_, hr, rfl⟩) id ?_
  intro v n k hv _
  simp only [Subscription.takeRest, State.setWrapper_wrappers, dropCompletions_wrappers,
    Wrappers.subOf_update, Option.bind_some] at hv
  split_ifs at hv with hvs hvw
  · rw [hnone] at hv
    contradiction
  · subst v
    refine ⟨w, (Wrappers.subOf_of_some hx).trans hv, ?_, ?_⟩
    · simp [Wrappers.pairedKey, hpcw, Subscription.takeRest, hne, Pc.rest,
        Wrappers.keyOf_of_some hy]
    · rintro ⟨u, hu⟩
      simp [hpcw] at hu
  · have hpcv : (Subscription.takeRest s w src { x with pc := .idle } y).wrappers.pcOf v =
        s.wrappers.pcOf v := by
      simp [Subscription.takeRest, hvs, hvw]
    refine ⟨v, hv, ?_, Exists.imp fun u hu => hpcv.trans hu⟩
    refine Wrappers.pairedKey_congr (by rw [hpcv]) ?_ ?_
    · simp [Subscription.takeRest, hvs, hvw]
    · intro u hu
      have husource := Calls.source_of_rest hu
      have huw : u ≠ w := by
        rintro rfl
        simp [(hl.lender husource).2] at hpcw
      have hus : u ≠ src := by
        rintro rfl
        exact hvw (hl.unique husource hsource)
      simp [Subscription.takeRest, huw, hus]

theorem constructSync (h : Custody s) (hk : Correspondence s) {w n : ℕ} (hw : s.wrappers w = none)
    (hk' : Correspondence ((s.setNative n ⟨.active, none, false, none, false⟩).setWrapper w
      (some ⟨some n, none, ∅, .idle, false⟩)))
    (ht : step s (.construct w (some n)) =
      some ((s.setNative n ⟨.active, none, false, none, false⟩).setWrapper w
        (some ⟨some n, none, ∅, .idle, false⟩))) :
    Custody ((s.setNative n ⟨.active, none, false, none, false⟩).setWrapper w
      (some ⟨some n, none, ∅, .idle, false⟩)) := by
  refine h.frame hk hk' ht (fun hr => ⟨_, hr, rfl⟩) ?_ ?_
  · intro m k hm
    simp only [State.setWrapper_natives, State.setNative_natives, Natives.handlerOf_update,
      Option.bind_some] at hm
    split_ifs at hm
    exact hm
  · intro v m k hv hm
    simp only [State.setWrapper_wrappers, State.setWrapper_natives, State.setNative_natives,
      State.setNative_wrappers, Wrappers.subOf_update, Natives.handlerOf_update,
      Option.bind_some] at hv hm
    split_ifs at hv hm with hvw hmn
    · exact absurd (Option.some.inj hv).symm hmn
    · have hnone : s.wrappers.pcOf w = none := by simp [Wrappers.pcOf, hw]
      have hkey : s.wrappers.keyOf w = none := by simp [Wrappers.keyOf, hw]
      refine ⟨v, hv, ?_, ?_⟩
      · exact Wrappers.pairedKey_update _ _ _ hkey.symm (by simp [hnone, Pc.rest])
      · rintro ⟨u, hu⟩
        exact ⟨u, by simpa [hvw] using hu⟩

theorem beginAssign (h : Custody s) (hk : Correspondence s) {w src : ℕ} {x y : Wrapper}
    (hx : s.wrappers w = some x) (hy : s.wrappers src = some y) (hidle : x.idle) (hidle' : y.idle)
    (hk' : Correspondence ((s.setWrapper w (some { x with pc := .assignRelease src })).setWrapper src
      (some { y with lent := true })))
    (ht : step s (.moveAssign w src) =
      some ((s.setWrapper w (some { x with pc := .assignRelease src })).setWrapper src
        (some { y with lent := true }))) :
    Custody ((s.setWrapper w (some { x with pc := .assignRelease src })).setWrapper src
      (some { y with lent := true })) := by
  refine h.frame hk hk' ht (fun hr => ⟨_, hr, rfl⟩) id ?_
  intro v n k hv _
  refine ⟨v, ?_, ?_, ?_⟩
  · rw [← hv]
    symm
    exact Wrappers.subOf_updateTwo v hx hy rfl rfl
  · have hfirst : Wrappers.pairedKey (Function.update s.wrappers w
        (some { x with pc := .assignRelease src })) v = s.wrappers.pairedKey v := by
      refine Wrappers.pairedKey_update _ _ _ (Wrappers.keyOf_of_some hx).symm ?_
      simp [Wrappers.pcOf_of_some hx, hidle.1, Pc.rest]
    refine (Wrappers.pairedKey_update _ _ _ ?_ ?_).trans hfirst
    · rw [State.setWrapper_wrappers, Wrappers.keyOf_update]
      split_ifs with hsrc
      · rw [← Wrappers.keyOf_of_some hx, ← hsrc, Wrappers.keyOf_of_some hy]
        rfl
      · exact (Wrappers.keyOf_of_some hy).symm
    · rw [State.setWrapper_wrappers, Wrappers.pcOf_update]
      split_ifs with hsrc
      · simp [hidle'.1, Pc.rest]
      · simp [Wrappers.pcOf_of_some hy, hidle'.1, Pc.rest]
  · rintro ⟨u, hu⟩
    have hvs : v ≠ src := by
      rintro rfl
      simp [Wrappers.pcOf_of_some hy, hidle'.1] at hu
    have hvw : v ≠ w := by
      rintro rfl
      simp [Wrappers.pcOf_of_some hx, hidle.1] at hu
    exact ⟨u, by simpa [hvs, hvw] using hu⟩

end Custody

/-- A registration that goes on keeps its token. -/
theorem exists_registration_of_update {f g : ℕ → Option Registration} {c d : ℕ} {token : Closure}
    {stage stage' : Stage} (hg : g = Function.update f c (some ⟨token, stage'⟩))
    (hc : f c = some ⟨token, stage⟩) {r : Registration} (hr : g d = some r) :
    ∃ q, f d = some q ∧ q.token = r.token := by
  rw [hg, Function.update_apply] at hr
  split_ifs at hr with hd
  · obtain rfl := Option.some.inj hr
    exact ⟨⟨token, stage⟩, hd ▸ hc, rfl⟩
  · exact ⟨r, hr, rfl⟩

theorem custody_initial : Custody initial := by
  constructor <;> simp [initial, Natives.handlerOf, Wrappers.subOf]

theorem Custody.step {s t : State} {a : Action} (h : Custody s) (hl : Calls s.wrappers)
    (hk : Correspondence s) (hh : Holding s) (he : Exclusive s) (ht : step s a = some t) :
    Custody t := by
  have hk' := hk.step hl ht
  cases fires_of_step ht with
  | skip => exact h
  | insertCallback => exact h.insertCallback hk hk' ht
  | enterSubscribe hc hn => exact h.enterSubscribe hh hc hn
  | returnSubscription hc hw => exact h.returnSubscription hl hk hh hc hw hk' ht
  | @failSubscribe c n token hc =>
    have hregs : (failSubscribe s c n token).registrations =
        Function.update s.registrations c (some ⟨token, .failed⟩) := by simp [failSubscribe]
    refine h.frame hk hk' ht (exists_registration_of_update hregs hc) (by simp [failSubscribe]) ?_
    intro v m k hv _
    simp only [failSubscribe, State.setRegistration_wrappers, State.destroyNative_wrappers] at hv ⊢
    exact ⟨v, hv, rfl, id⟩
  | undoInsert hc =>
    exact h.frame hk hk' ht (exists_registration_of_update rfl hc) id fun hv _ => ⟨_, hv, rfl, id⟩
  | @dropToken c token hc =>
    refine h.frame hk hk' ht ?_ id fun hv _ => ⟨_, hv, rfl, id⟩
    intro d r hr
    by_cases hd : d = c
    · simp [dropToken, hd] at hr
    · exact ⟨r, by simpa [dropToken, hd] using hr, rfl⟩
  | constructEmpty hw =>
    refine h.update hk hk' ht rfl rfl (fun _ => rfl) (by simp) ?_ ?_ ?_
    · simp [Wrappers.keyOf, hw]
    · simp [Wrappers.pcOf, hw, Pc.rest]
    · simp [Wrappers.MidAssign, Wrappers.pcOf, hw]
  | constructSync hw _ => exact h.constructSync hk hw hk' ht
  | moveMembers hw hy hidle => exact h.moveMembers hl hk hw hy hidle hk' ht
  | beginUnsubscribe hx hidle | beginDestroy hx hidle | insertCompletion hx hidle _ _ =>
    exact h.updateCall hk hk' ht hx rfl rfl (fun _ => rfl) (.inr rfl) rfl (by simp [hidle.1, Pc.rest])
      rfl (by simp [hidle.1])
  | beginAssign hx hy hidle hidle' _ => exact h.beginAssign hk hx hy hidle hidle' hk' ht
  | @drained w n x hx hsub =>
    have hhandler (m : ℕ) : (s.closeNative n).natives.handlerOf m = s.natives.handlerOf m :=
      s.handlerOf_mapNative n m fun _ => rfl
    exact h.frame hk hk' ht (fun hr => ⟨_, hr, rfl⟩) (fun hm => (hhandler _).symm.trans hm)
      fun hv _ => ⟨_, hv, rfl, id⟩
  | @complete n y k =>
    have hhandler (m : ℕ) : (s.mapNative n fun x => { x with completed := true }).natives.handlerOf m =
        s.natives.handlerOf m := s.handlerOf_mapNative n m fun _ => rfl
    exact h.frame hk hk' ht (fun hr => ⟨_, hr, rfl⟩) (fun hm => (hhandler _).symm.trans hm)
      fun hv _ => ⟨_, hv, rfl, id⟩
  | unsubscribed hx hpc _ =>
    exact h.updateCall hk hk' ht hx rfl rfl (fun m => s.handlerOf_mapNative _ m fun _ => rfl)
      (.inr rfl) rfl (by simp [hpc, Pc.rest]) rfl (by simp [hpc])
  | unsubscribeThrow hx hpc | pruneOthers hx hpc | eraseToken hx hpc =>
    exact h.updateCall hk hk' ht hx rfl rfl (fun _ => rfl) (.inr rfl) rfl (by simp [hpc, Pc.rest])
      rfl (by simp [hpc])
  | @resetSub w ok x p hx hp =>
    have hwrappers := resetSub_wrappers s w { x with pc := p }
    have hrest : x.pc.rest = none ∧ p.rest = none ∧ ∀ src, x.pc ≠ .assignSub src := by
      cases hpc : x.pc <;> simp only [hpc, Pc.afterReset, Option.some.injEq, reduceCtorEq] at hp <;>
        simp [← hp, Pc.rest]
    exact h.updateCall hk hk' ht hx hwrappers (by simp [resetSub]) (by simp [resetSub]) (.inl rfl) rfl
      hrest.1 hrest.2.1 hrest.2.2
  | releaseCallback hx hp => exact h.releaseCallback hl hk hh he hx hp hk' ht
  | endLifetime hx hpc =>
    have hnone := hl.cleared (Wrappers.pcOf_of_some hx) (by rw [hpc]; rfl)
    refine h.update hk hk' ht rfl rfl (fun _ => rfl) (by simp) hnone.symm ?_ ?_
    · simp [Wrappers.pcOf_of_some hx, hpc, Pc.rest]
    · simp [Wrappers.MidAssign, Wrappers.pcOf_of_some hx, hpc]
  | takeSub hx hpc hy => exact h.takeSub hl hk hx hpc hy hk' ht
  | takeRest hx hpc hy => exact h.takeRest hl hk hx hpc hy hk' ht
  | @setOnCompleteCB w ok x k hx hpc =>
    obtain ⟨p, hp, hwrappers⟩ : ∃ p : Pc, p.rest = none ∧ (setOnCompleteCB s w x k ok).wrappers =
        Function.update s.wrappers w (some { x with pc := p }) := by
      unfold setOnCompleteCB
      split
      · exact ⟨.pruning k.addr, rfl, rfl⟩
      · exact ⟨.erasing k.addr, rfl, rfl⟩
    have hregs : (setOnCompleteCB s w x k ok).registrations = s.registrations := by
      unfold setOnCompleteCB
      split <;> rfl
    have hhandler (m : ℕ) : (setOnCompleteCB s w x k ok).natives.handlerOf m =
        s.natives.handlerOf m := by
      unfold setOnCompleteCB
      split
      · exact s.handlerOf_mapNative _ m fun _ => rfl
      · rfl
    exact h.updateCall hk hk' ht hx hwrappers hregs hhandler (.inr rfl) rfl (by simp [hpc, Pc.rest])
      hp (by simp [hpc])
  | deliver | callHandler | returnHandler =>
    exact h.frame hk hk' ht (fun hr => ⟨_, hr, rfl⟩) id fun hv _ => ⟨_, hv, rfl, id⟩

theorem wellFormed_invariant : machine.Invariant Machine.Free WellFormed where
  init := ⟨calls_initial, correspondence_initial, holding_initial, exclusive_initial,
    custody_initial⟩
  step := by
    intro s a t h _ ht
    exact ⟨h.calls.step ht, h.correspondence.step h.calls ht,
      h.holding.step h.calls h.correspondence ht, h.exclusive.step h.correspondence ht,
      h.custody.step h.calls h.correspondence h.holding h.exclusive ht⟩

/-! ## Deliveries start on registered handlers -/

/-- The registry holds the object that `k` was taken from. -/
def HandlerRegistered (s : State) (k : Closure) : Prop :=
  k.addr ∈ s.callbacks ∧ .registry ∈ s.functions.owners k.addr ∧
    s.functions.value k.addr = some k.ident

/-- A delivery that dereferences its closure finds the handler in the registry. -/
def DeliversRegistered (s : State) : Action → Prop
  | .deliver _ n (some _) => ∀ k, s.natives.handlerOf n = some k → HandlerRegistered s k
  | _ => True

/-- The subscription is not held by the target of a move assignment that has run
`release_callback` and has not yet overwritten `sub_`. -/
def OutsideAssign (s : State) (n : ℕ) : Prop :=
  ∀ w, s.wrappers.subOf w = some n → ¬ s.wrappers.MidAssign w

/-- No delivery starts in the window of a move assignment. -/
def DeliversOutsideAssign (s : State) : Action → Prop
  | .deliver _ n (some _) => OutsideAssign s n
  | _ => True

/-- The handler of a subscription that nats.c may deliver on is registered,
except in the window of a move assignment. -/
theorem handlerRegistered_iff {s : State} (h : WellFormed s) {n : ℕ} {y : Native} {k : Closure}
    (hn : s.natives n = some y) (hphase : y.phase ≠ .destroyed) (hk : y.handler = some k) :
    HandlerRegistered s k ↔ OutsideAssign s n := by
  have hphaseOf : s.natives.phaseOf n = some y.phase := by simp [Natives.phaseOf, hn]
  have hhandler : s.natives.handlerOf n = some k := by simp [Natives.handlerOf, hn, hk]
  constructor
  · intro hregistered w hw hmid
    exact (h.custody.paired hw hhandler).dead h.calls hmid hregistered.2.2
  · intro houtside
    cases hp : y.phase with
    | subscribing =>
      obtain ⟨c, token, hc⟩ := h.holding.claimed (hphaseOf.trans (congrArg some hp))
      have htoken := (h.holding.subscribing hc).2
      obtain rfl : k = token := Option.some.inj (hhandler.symm.trans htoken)
      have hinserted := h.correspondence.inserted hc (by simp)
      exact ⟨hinserted, h.correspondence.owned hinserted, (h.correspondence.tokenHeld hc).2⟩
    | active =>
      obtain ⟨w, hw⟩ := h.holding.held (hphaseOf.trans (congrArg some hp))
      exact (h.custody.paired hw hhandler).registered h.correspondence (houtside w hw)
    | destroyed => exact (hphase hp).elim

/-- The handler of every subscription that nats.c may deliver on is registered: it comes into
the map before the subscription, and stays there until the subscription is destroyed. -/
def HandlersRegistered (s : State) : Prop :=
  ∀ n y k, s.natives n = some y → y.phase ≠ .destroyed → y.handler = some k → HandlerRegistered s k

/-- No async subscription is held by the target of a move assignment that has run
`release_callback` and has not yet overwritten `sub_`. -/
def AssignsOverNone (s : State) : Prop :=
  ∀ w n, s.wrappers.MidAssign w → s.wrappers.subOf w = some n → s.natives.handlerOf n = none

theorem handlersRegistered_iff {s : State} (h : WellFormed s) :
    HandlersRegistered s ↔ AssignsOverNone s := by
  constructor
  · intro hregistered w n hmid hw
    by_contra hne
    obtain ⟨k, hk⟩ := Option.ne_none_iff_exists'.mp hne
    obtain ⟨y, hn, hy⟩ := Option.bind_eq_some_iff.mp hk
    have hactive := h.holding.active hw
    have hphase : y.phase ≠ .destroyed := by
      intro hdestroyed
      simp [Natives.phaseOf, hn, hdestroyed] at hactive
    have hin := hregistered n y k hn hphase hy
    exact (handlerRegistered_iff h hn hphase hy).mp hin w hw hmid
  · intro hassigns n y k hn hphase hy
    refine (handlerRegistered_iff h hn hphase hy).mpr fun w hw hmid => ?_
    have hnone := hassigns w n hmid hw
    simp [Natives.handlerOf, hn, hy] at hnone

/-- The handlers are registered in all states of a run, exactly if it comes to no state in
which a move assignment has released the callback of an async subscription and not yet
destroyed that. -/
theorem handlersRegistered_throughout_iff (as : List Action) :
    machine.Throughout HandlersRegistered machine.init as ↔
      machine.Throughout AssignsOverNone machine.init as :=
  (wellFormed_invariant.throughout wellFormed_invariant.init as).congr handlersRegistered_iff

theorem deliver_of_step {s t : State} {d n m : ℕ} (ht : step s (.deliver d n (some m)) = some t) :
    ∃ y k, s.natives n = some y ∧ y.phase ≠ .destroyed ∧ y.handler = some k ∧
      s.deliveries d = none ∧ t = s.setDelivery d (some ⟨k, false⟩) := by
  simp only [step, deliver] at ht
  split at ht
  · rename_i hn hd
    split at ht
    · contradiction
    · rename_i hphase
      exact ⟨_, _, hn, hphase, rfl, hd, (Option.some.inj ht).symm⟩
  · contradiction

/-- In a run every delivery starts on a handler that the registry holds, exactly
if none of them starts between `release_callback` and `sub_ = std::move(other.sub_)`
of a move assignment over the wrapper of its subscription. -/
theorem deliversRegistered_iff (as : List Action) :
    machine.Respects DeliversRegistered machine.init as ↔
      machine.Respects DeliversOutsideAssign machine.init as := by
  refine wellFormed_invariant.respects_iff ?_ wellFormed_invariant.init as
  intro s a t h ht
  match a with
  | .deliver d n (some m) =>
    have hdeliver : step s (.deliver d n (some m)) = some t := ht
    obtain ⟨y, k, hn, hphase, hk, _⟩ := deliver_of_step hdeliver
    have hhandler : s.natives.handlerOf n = some k := by simp [Natives.handlerOf, hn, hk]
    rw [DeliversOutsideAssign, ← handlerRegistered_iff h hn hphase hk]
    simp [DeliversRegistered, hhandler]
  | .deliver d n none => exact Iff.rfl
  | .registerInsert .. | .subscribeBegin .. | .subscribeOk .. | .subscribeFail ..
  | .registerErase .. | .registerThrow .. | .construct .. | .moveConstruct .. | .unsubscribe ..
  | .destroy .. | .moveAssign .. | .drain .. | .setOnCompleteCallback .. | .advance ..
  | .callHandler .. | .returnHandler .. | .complete .. => exact Iff.rfl

/-- Two subscriptions are registered, and the second is move-assigned over the
first as far as `release_callback`. -/
def assignOverLive : List Action :=
  [.registerInsert 0 0, .subscribeBegin 0 0, .subscribeOk 0 0, .registerInsert 0 1,
    .subscribeBegin 0 1, .subscribeOk 0 1, .moveAssign 0 1, .advance 0 true]

/-- A message for the first subscription that comes just then meets no handler. -/
theorem assignOverLive_not_registered : ¬ machine.Respects DeliversRegistered machine.init
    (assignOverLive ++ [.deliver 0 0 (some 0)]) := by
  intro h
  have hrun : (machine.run machine.init assignOverLive).map (fun s =>
      (s.natives.handlerOf 0, decide (0 ∈ s.callbacks),
        (machine.step s (.deliver 0 0 (some 0))).isSome)) = some (some ⟨0, 0⟩, false, true) := by
    decide
  obtain ⟨s, hs, hview⟩ := Option.map_eq_some_iff.mp hrun
  obtain ⟨hhandler, hmem, hstep⟩ : s.natives.handlerOf 0 = some ⟨0, 0⟩ ∧ 0 ∉ s.callbacks ∧
      (machine.step s (.deliver 0 0 (some 0))).isSome = true := by simpa using hview
  obtain ⟨t, ht⟩ := Option.isSome_iff_exists.mp hstep
  exact hmem ((h.of_run hs ht) _ hhandler).1

end NatsCpp.Subscription
