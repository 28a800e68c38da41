import NatsCpp.SubscriptionRunning
import Mathlib.Data.Finset.Basic
import Mathlib.Algebra.Order.Group.Multiset

/-!
# Keys and handlers, as long as the registry exists

The registry is shared by the connection object and the registrations under way,
each of which has copied `callback_state_`; it goes with the last of them. Until
then the handlers registered so far are those that have been erased and those
that are in the registry, and each key is captured by one release closure or
belongs to one registration.
-/
namespace NatsCpp.Subscription

/-! ## Entries -/

/-- The identities of the handlers at some keys. -/
def State.idents (s : State) (keys : Finset ℕ) : Multiset (Option ℕ) :=
  keys.val.map s.functions.value

section Step

variable {s t : State} {a : Action}

/-- The registry's own entry goes out of the map when it is let go of. -/
theorem notMem_callbacks_of_letsGo {b : ℕ} (ht : step s a = some t)
    (hgo : LetsGo s b .registry a) : b ∉ t.callbacks := by
  match a with
  | .advance w ok =>
    obtain ⟨x, hx, hrelease, hkey⟩ := hgo
    obtain ⟨p, -, rfl⟩ := releaseCallback_of_step hx hrelease ht
    simp [releaseCallback, hkey]
  | .registerErase c =>
    obtain ⟨-, r, hr, rfl⟩ := hgo
    obtain ⟨token, hc, rfl⟩ := undoInsert_of_step ht
    obtain rfl := Option.some.inj (hc.symm.trans hr)
    simp [undoInsert]

/-- An entry that stays keeps its handler. -/
theorem value_of_mem_callbacks (h : Correspondence s) (ht : step s a = some t) {b : ℕ}
    (hb : b ∈ s.callbacks) (hb' : b ∈ t.callbacks) :
    t.functions.value b = s.functions.value b := by
  have hkeep : ¬ LetsGo s b .registry a := fun hgo => notMem_callbacks_of_letsGo ht hgo hb'
  exact (keeps_of_step ht (h.owned hb) hkeep).2

/-- Only a registration makes an entry, for a new handler. -/
theorem callbacks_of_step (h : Correspondence s) (ht : step s a = some t) :
    t.callbacks ⊆ s.callbacks ∨ ∃ c b, a = .registerInsert c b ∧ b ∉ s.callbacks ∧
      t.callbacks = insert b s.callbacks ∧ t.functions.value b = some s.fresh ∧
      t.fresh = s.fresh + 1 := by
  cases fires_of_step ht with
  | skip | enterSubscribe | returnSubscription | dropToken | constructEmpty | constructSync
  | moveMembers | beginUnsubscribe | beginDestroy | beginAssign | drained | insertCompletion
  | unsubscribed | unsubscribeThrow | endLifetime | takeRest | pruneOthers | eraseToken | deliver
  | callHandler | returnHandler | complete => exact .inl (Finset.Subset.refl _)
  | @insertCallback c b hc hb =>
    refine .inr ⟨c, b, rfl, fun hmem => ?_, rfl, ?_, rfl⟩
    · exact SharedHeap.value_ne_none_of_owner _ (h.owned hmem) hb
    · simp [insertCallback]
  | failSubscribe => exact .inl (by simp [failSubscribe])
  | undoInsert => exact .inl (Finset.erase_subset _ _)
  | resetSub => exact .inl (by simp [resetSub])
  | releaseCallback =>
    unfold releaseCallback
    split
    · exact .inl (Finset.Subset.refl _)
    · exact .inl (Finset.erase_subset _ _)
  | takeSub => exact .inl (by simp [takeSub])
  | setOnCompleteCB =>
    unfold setOnCompleteCB
    split <;> exact .inl (Finset.Subset.refl _)

/-- What is there and what has gone is what was there and what has come. -/
theorem idents_balance (h : Correspondence s) (ht : step s a = some t) :
    t.idents t.callbacks + s.idents (s.callbacks \ t.callbacks) =
      s.idents s.callbacks + t.idents (t.callbacks \ s.callbacks) := by
  have hsplit (u : State) (x y : Finset ℕ) :
      u.idents x = u.idents (x ∩ y) + u.idents (x \ y) := by
    rw [State.idents, State.idents, State.idents, ← Multiset.map_add,
      ← Finset.disjUnion_val _ _ (Finset.disjoint_sdiff_inter x y).symm,
      Finset.disjUnion_eq_union, Finset.union_comm, Finset.sdiff_union_inter]
  have hkept : t.idents (t.callbacks ∩ s.callbacks) = s.idents (s.callbacks ∩ t.callbacks) := by
    rw [State.idents, State.idents, Finset.inter_comm]
    refine Multiset.map_congr rfl fun b hb => ?_
    obtain ⟨hs, ht'⟩ := Finset.mem_inter.mp hb
    exact value_of_mem_callbacks h ht hs ht'
  rw [hsplit t t.callbacks s.callbacks, hsplit s s.callbacks t.callbacks, hkept,
    add_assoc, add_assoc, add_comm (t.idents _)]

/-- An entry that goes is erased by the wrapper that captures its key, or by the
failed registration that made it. -/
theorem letsGo_of_notMem (ht : step s a = some t) {b : ℕ} (hb : b ∈ s.callbacks)
    (hb' : b ∉ t.callbacks) : (∃ w ok, a = .advance w ok ∧ s.wrappers.keyOf w = some b) ∨
      ∃ c k, a = .registerErase c ∧ s.registrations c = some ⟨k, .failed⟩ ∧ k.addr = b := by
  have hgo : LetsGo s b .registry a := by
    by_contra hkeep
    exact hb' (mem_callbacks_of_step ht hb hkeep)
  match a with
  | .advance w ok =>
    obtain ⟨x, hx, -, hkey⟩ := hgo
    exact .inl ⟨w, ok, rfl, (Wrappers.keyOf_of_some hx).trans hkey⟩
  | .registerErase c =>
    obtain ⟨-, r, hr, rfl⟩ := hgo
    obtain ⟨k, hc, -⟩ := undoInsert_of_step ht
    obtain rfl := Option.some.inj (hc.symm.trans hr)
    exact .inr ⟨c, k, rfl, hc, rfl⟩

/-- A failed `unsubscribe` leaves the wrapper and the registry as they are. -/
theorem unsubscribe_failed {w : ℕ} {x : Wrapper} (hx : s.wrappers w = some x)
    (hpc : x.pc = .unsubscribing) (ht : step s (.advance w false) = some t) :
    t = s.setWrapper w (some { x with pc := .idle }) := by
  simpa [step, advance, hx, hpc] using ht.symm

end Step

/-- No registration and no member function is under way. -/
def State.Quiescent (s : State) : Prop :=
  (∀ c, s.registrations c = none) ∧ ∀ w x, s.wrappers w = some x → x.pc = .idle

/-- In a quiescent state the keys are those that the release closures capture. -/
theorem Correspondence.mem_callbacks_iff {s : State} (h : Correspondence s) (hq : s.Quiescent)
    (b : ℕ) : b ∈ s.callbacks ↔ ∃ w, s.wrappers.keyOf w = some b := by
  constructor
  · intro hb
    rcases h.cover hb with hw | ⟨c, r, hr, -⟩
    · exact hw
    · simp [hq.1 c] at hr
  · rintro ⟨w, hw⟩
    exact h.registered hw

end NatsCpp.Subscription

namespace NatsCpp.RegistryKeys
open Subscription

/-! ## The lifetime of the registry -/

/-- `holders` are the owners of `callback_state`: `none` is the member of the connection
object, `some c` the local variable of a registration. `registered` and `erased` record
the handlers that have come into the map and those that have been erased from it. -/
structure State where
  base : Subscription.State
  holders : Finset (Option ℕ)
  registered : Multiset (Option ℕ)
  erased : Multiset (Option ℕ)

def initial : State := ⟨Subscription.initial, {none}, 0, 0⟩

/-- The registry is destroyed, and with it the map. -/
def destroyRegistry (s : Subscription.State) : Subscription.State :=
  { s with callbacks := ∅, functions := s.functions.dropAll (· ∈ s.callbacks) .registry }

/-- An owner of the registry lets go of it. -/
def State.letGo (s : State) (p : Option ℕ) : State :=
  let holders := s.holders.erase p
  { s with holders, base := if holders = ∅ then destroyRegistry s.base else s.base }

/-- A step of a registration, a wrapper or nats.c. Once the registry has gone its map is
empty, so that the closures erase nothing. -/
def call (s : State) (a : Subscription.Action) : Option State :=
  (Subscription.step s.base a).bind fun base =>
    let t : State :=
      { s with
        base
        registered := s.registered + base.idents (base.callbacks \ s.base.callbacks)
        erased := s.erased + s.base.idents (s.base.callbacks \ base.callbacks) }
    match a with
    | .registerInsert c _ =>
      if none ∈ s.holders then some { t with holders := insert (some c) s.holders } else none
    | .subscribeOk c _ | .registerThrow c => some (t.letGo (some c))
    | _ => some t

/-- The connection object is destroyed or assigned over. -/
def disconnect (s : State) : Option State :=
  if none ∈ s.holders then some (s.letGo none) else none

inductive Action where
  | call (a : Subscription.Action)
  | disconnect

def step (s : State) : Action → Option State
  | .call a => call s a
  | .disconnect => disconnect s

def machine : Machine State Action := ⟨initial, step⟩

/-- While the registry exists, a step is one of the machine of the calls. -/
theorem base_of_step {s t : State} {a : Action} (ht : step s a = some t)
    (hholders : t.holders.Nonempty) :
    (t.base = s.base ∧ t.registered = s.registered ∧ t.erased = s.erased) ∨
      ∃ b, a = .call b ∧ Subscription.step s.base b = some t.base ∧
        t.registered = s.registered + t.base.idents (t.base.callbacks \ s.base.callbacks) ∧
        t.erased = s.erased + s.base.idents (s.base.callbacks \ t.base.callbacks) := by
  have hletGo {u : State} {p : Option ℕ} (hu : (u.letGo p).holders.Nonempty) :
      (u.letGo p).base = u.base := if_neg hu.ne_empty
  cases a with
  | disconnect =>
    simp only [step, disconnect] at ht
    split_ifs at ht
    obtain rfl := Option.some.inj ht
    exact .inl ⟨hletGo hholders, rfl, rfl⟩
  | call b =>
    obtain ⟨base, hbase, ht⟩ := Option.bind_eq_some_iff.mp ht
    refine .inr ⟨b, rfl, ?_⟩
    dsimp only at ht
    split at ht
    · split_ifs at ht
      obtain rfl := Option.some.inj ht
      exact ⟨hbase, rfl, rfl⟩
    · obtain rfl := Option.some.inj ht
      rw [hletGo hholders]
      exact ⟨hbase, rfl, rfl⟩
    · obtain rfl := Option.some.inj ht
      rw [hletGo hholders]
      exact ⟨hbase, rfl, rfl⟩
    · obtain rfl := Option.some.inj ht
      exact ⟨hbase, rfl, rfl⟩

/-- A registry that has gone does not come back. -/
theorem holders_of_step {s t : State} {a : Action} (ht : step s a = some t)
    (hholders : t.holders.Nonempty) : s.holders.Nonempty := by
  cases a with
  | disconnect =>
    simp only [step, disconnect] at ht
    split_ifs at ht with hnone
    exact ⟨none, hnone⟩
  | call b =>
    obtain ⟨base, hbase, ht⟩ := Option.bind_eq_some_iff.mp ht
    dsimp only at ht
    split at ht
    · split_ifs at ht with hnone
      exact ⟨none, hnone⟩
    · obtain rfl := Option.some.inj ht
      exact hholders.mono (Finset.erase_subset _ _)
    · obtain rfl := Option.some.inj ht
      exact hholders.mono (Finset.erase_subset _ _)
    · obtain rfl := Option.some.inj ht
      exact hholders

/-! ## The accounts of the handlers -/

/-- What every run keeps as long as the registry exists. -/
structure Accounts (s : State) : Prop where
  wellFormed : WellFormed s.base
  balance : s.registered = s.erased + s.base.idents s.base.callbacks
  bound : ∀ {i}, i ∈ s.registered → ∃ j, i = some j ∧ j < s.base.fresh
  nodup : s.registered.Nodup

/-! ## Correspondence -/

/-- Keys and release closures correspond, whatever happens to be at an address: a
handler is in the registry until the wrapper that has got its key, or the failed
registration that made it, erases it. -/
structure Corresponds (s : State) : Prop where
  keys : s.base.Quiescent → ∀ b, b ∈ s.base.callbacks ↔ ∃ w, s.base.wrappers.keyOf w = some b
  unique : ∀ {v w b}, s.base.wrappers.keyOf v = some b → s.base.wrappers.keyOf w = some b → v = w
  once : s.registered.Nodup
  balance : s.registered = s.erased + s.base.idents s.base.callbacks
  released : s.base.Quiescent → (∀ w, s.base.wrappers.keyOf w = none) → s.erased = s.registered
  carries : ∀ {a t v b}, step s a = some t → t.holders.Nonempty →
    t.base.wrappers.keyOf v = some b →
      ((∃ u, s.base.wrappers.keyOf u = some b) ∧
        t.base.functions.value b = s.base.functions.value b) ∨
      ∃ c k n, a = .call (.subscribeOk c v) ∧
        s.base.registrations c = some ⟨k, .subscribing n⟩ ∧ k.addr = b ∧
        t.base.functions.value b = some k.ident
  erases : ∀ {a t b}, step s a = some t → t.holders.Nonempty → b ∈ s.base.callbacks →
    b ∉ t.base.callbacks →
      (∃ w ok, a = .call (.advance w ok) ∧ s.base.wrappers.keyOf w = some b) ∨
      ∃ c k, a = .call (.registerErase c) ∧ s.base.registrations c = some ⟨k, .failed⟩ ∧
        k.addr = b ∧ s.base.functions.value b = some k.ident
  registers : ∀ {c b t}, step s (.call (.registerInsert c b)) = some t →
    b ∉ s.base.callbacks ∧ t.base.callbacks = insert b s.base.callbacks
  undoes : ∀ {c t}, step s (.call (.registerErase c)) = some t →
    ∃ k, s.base.registrations c = some ⟨k, .failed⟩ ∧ k.addr ∈ s.base.callbacks ∧
      t.base.callbacks = s.base.callbacks.erase k.addr
  refuses : ∀ {w x t}, s.base.wrappers w = some x → x.pc = .unsubscribing →
    step s (.call (.advance w false)) = some t →
      t.base = s.base.setWrapper w (some { x with pc := .idle })

namespace Accounts

variable {s t : State}

theorem released (h : Accounts s) (hq : s.base.Quiescent)
    (hnone : ∀ w, s.base.wrappers.keyOf w = none) : s.erased = s.registered := by
  have hempty : s.base.callbacks = ∅ := by
    rw [Finset.eq_empty_iff_forall_notMem]
    intro b hb
    obtain ⟨w, hw⟩ := (h.wellFormed.correspondence.mem_callbacks_iff hq b).mp hb
    simp [hnone w] at hw
  rw [h.balance, hempty]
  simp [Subscription.State.idents]

theorem carries {a : Action} (h : Accounts s) (ht : step s a = some t)
    (hholders : t.holders.Nonempty) {v b : ℕ} (hv : t.base.wrappers.keyOf v = some b) :
    ((∃ u, s.base.wrappers.keyOf u = some b) ∧
      t.base.functions.value b = s.base.functions.value b) ∨
    ∃ c k n, a = .call (.subscribeOk c v) ∧
      s.base.registrations c = some ⟨k, .subscribing n⟩ ∧ k.addr = b ∧
      t.base.functions.value b = some k.ident := by
  rcases base_of_step ht hholders with ⟨hbase, -⟩ | ⟨a', rfl, hbase, -⟩
  · rw [hbase] at hv ⊢
    exact .inl ⟨⟨v, hv⟩, rfl⟩
  · have hk := h.wellFormed.correspondence
    have hb' : b ∈ t.base.callbacks :=
      (wellFormed_invariant.step h.wellFormed trivial hbase).correspondence.registered hv
    rcases exists_keyOf_of_step hbase hv with ⟨u, hu⟩ | ⟨c, k, n, rfl, hc, rfl, -⟩
    · exact .inl ⟨⟨u, hu⟩, value_of_mem_callbacks hk hbase (hk.registered hu) hb'⟩
    · refine .inr ⟨c, k, n, rfl, hc, rfl, ?_⟩
      have hb : k.addr ∈ s.base.callbacks := hk.inserted hc (by simp)
      exact (value_of_mem_callbacks hk hbase hb hb').trans (hk.tokenHeld hc).2

theorem erases {a : Action} (h : Accounts s) (ht : step s a = some t)
    (hholders : t.holders.Nonempty) {b : ℕ} (hb : b ∈ s.base.callbacks)
    (hb' : b ∉ t.base.callbacks) :
    (∃ w ok, a = .call (.advance w ok) ∧ s.base.wrappers.keyOf w = some b) ∨
    ∃ c k, a = .call (.registerErase c) ∧ s.base.registrations c = some ⟨k, .failed⟩ ∧
      k.addr = b ∧ s.base.functions.value b = some k.ident := by
  rcases base_of_step ht hholders with ⟨hbase, -⟩ | ⟨a', rfl, hbase, -⟩
  · rw [hbase] at hb'
    exact (hb' hb).elim
  · rcases letsGo_of_notMem hbase hb hb' with ⟨w, ok, rfl, hkey⟩ | ⟨c, k, rfl, hc, rfl⟩
    · exact .inl ⟨w, ok, rfl, hkey⟩
    · exact .inr ⟨c, k, rfl, hc, rfl, (h.wellFormed.correspondence.tokenHeld hc).2⟩

theorem registers (h : Accounts s) {c b : ℕ}
    (ht : step s (.call (.registerInsert c b)) = some t) :
    b ∉ s.base.callbacks ∧ t.base.callbacks = insert b s.base.callbacks := by
  obtain ⟨base, hbase, ht⟩ := Option.bind_eq_some_iff.mp ht
  dsimp only at ht
  split_ifs at ht
  obtain rfl := Option.some.inj ht
  simp only [Subscription.step, registerInsert] at hbase
  split_ifs at hbase with hfree
  obtain rfl := Option.some.inj hbase
  refine ⟨fun hb => ?_, rfl⟩
  have hvalue := SharedHeap.value_ne_none_of_owner _ (h.wellFormed.correspondence.owned hb)
  exact hvalue (by simpa using hfree.2)

theorem undoes (h : Accounts s) {c : ℕ} (ht : step s (.call (.registerErase c)) = some t) :
    ∃ k, s.base.registrations c = some ⟨k, .failed⟩ ∧ k.addr ∈ s.base.callbacks ∧
      t.base.callbacks = s.base.callbacks.erase k.addr := by
  obtain ⟨base, hbase, ht⟩ := Option.bind_eq_some_iff.mp ht
  obtain rfl := Option.some.inj ht
  obtain ⟨k, hc, rfl⟩ := undoInsert_of_step hbase
  exact ⟨k, hc, h.wellFormed.correspondence.inserted hc (by simp), rfl⟩

theorem corresponds (h : Accounts s) : Corresponds s where
  keys hq b := h.wellFormed.correspondence.mem_callbacks_iff hq b
  unique hv hw := h.wellFormed.correspondence.keyUnique hv hw
  once := h.nodup
  balance := h.balance
  released := h.released
  carries ht hholders hv := h.carries ht hholders hv
  erases ht hholders hb hb' := h.erases ht hholders hb hb'
  registers ht := h.registers ht
  undoes ht := h.undoes ht
  refuses {w x t} hx hpc ht := by
    obtain ⟨base, hbase, ht⟩ := Option.bind_eq_some_iff.mp ht
    obtain rfl := Option.some.inj ht
    exact unsubscribe_failed hx hpc hbase

end Accounts

theorem Accounts.step {s t : State} {a : Action} (h : Accounts s) (ht : step s a = some t)
    (hholders : t.holders.Nonempty) : Accounts t := by
  rcases base_of_step ht hholders with ⟨hbase, hregistered, herased⟩ |
    ⟨b, -, hbase, hregistered, herased⟩
  · constructor
    · exact hbase ▸ h.wellFormed
    · rw [hregistered, herased, hbase, h.balance]
    · rw [hregistered, hbase]
      exact h.bound
    · rw [hregistered]
      exact h.nodup
  · have hk := h.wellFormed.correspondence
    have hfresh : s.base.fresh ≤ t.base.fresh := (ages_of_step hbase).fresh_le
    have hnew : t.registered = s.registered ∨ t.base.fresh = s.base.fresh + 1 ∧
        t.registered = s.registered + {some s.base.fresh} := by
      rcases callbacks_of_step hk hbase with hsub | ⟨c, b, -, hb, hins, hvalue, hsucc⟩
      · left
        rw [hregistered, Finset.sdiff_eq_empty_iff_subset.mpr hsub]
        simp [State.idents]
      · right
        have hdiff : t.base.callbacks \ s.base.callbacks = {b} := by
          rw [hins, Finset.insert_sdiff_cancel hb]
        rw [hregistered, hdiff]
        simp [State.idents, hvalue, hsucc]
    refine ⟨wellFormed_invariant.step h.wellFormed trivial hbase, ?_, ?_, ?_⟩
    · rw [hregistered, herased, h.balance, add_assoc, add_assoc, ← idents_balance hk hbase,
        add_comm (t.base.idents _)]
    · intro i hi
      rcases hnew with hsame | ⟨hsucc, hadd⟩
      · obtain ⟨j, rfl, hj⟩ := h.bound (hsame ▸ hi)
        exact ⟨j, rfl, hj.trans_le hfresh⟩
      · rw [hadd, Multiset.mem_add, Multiset.mem_singleton] at hi
        rcases hi with hi | rfl
        · obtain ⟨j, rfl, hj⟩ := h.bound hi
          exact ⟨j, rfl, hj.trans_le hfresh⟩
        · exact ⟨s.base.fresh, rfl, by omega⟩
    · rcases hnew with hsame | ⟨-, hadd⟩
      · exact hsame ▸ h.nodup
      · rw [hadd, add_comm, Multiset.singleton_add, Multiset.nodup_cons]
        refine ⟨fun hmem => ?_, h.nodup⟩
        obtain ⟨j, hj, hlt⟩ := h.bound hmem
        obtain rfl := Option.some.inj hj
        exact lt_irrefl _ hlt

theorem accounts_invariant :
    machine.Invariant Machine.Free (fun s => s.holders.Nonempty → Accounts s) where
  init _ := ⟨wellFormed_invariant.init, rfl, by simp [machine, initial], by simp [machine, initial]⟩
  step h _ ht hholders := (h (holders_of_step ht hholders)).step ht hholders

/-- In every run, as long as the registry exists. -/
theorem corresponds_throughout (as : List Action) :
    machine.Throughout (fun s => s.holders.Nonempty → Corresponds s) machine.init as :=
  (accounts_invariant.throughout accounts_invariant.init as).mono fun _ h hholders =>
    (h hholders).corresponds

end NatsCpp.RegistryKeys
