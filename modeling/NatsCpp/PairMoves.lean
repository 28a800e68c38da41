import NatsCpp.HandlePrograms

/-!
# The two handles of a `key_value`

`key_value` owns two handles: the store, and the JetStream context that the
store was made in. Functions of other classes leave such pairs alone. Those of
`key_value` move a pair as a whole, or destroy the store and then its context.
-/
namespace NatsCpp.Handles
open Effect

/-- A pair of handles that a `key_value` object owns. -/
def State.HasPair (s : State) (a b : ℕ) : Prop :=
  ∃ x, s.objectAt x = some (.keyValue (.addr a) (.addr b))

/-- The store and then its context have been destroyed, with nothing in between. -/
def State.DestroyedPair (s : State) (a b : ℕ) : Prop :=
  [⟨.kvStore, b⟩, ⟨.jsCtx, a⟩] <:+: s.destroyed

/-- The pairs of the first state have moved to other objects of the second, or have been
destroyed, and there are no new ones. -/
structure MovesPairs (s t : State) : Prop where
  destroyed : s.destroyed <+: t.destroyed
  parents : t.parents = s.parents
  created : ∀ {h}, s.Created h → t.Created h
  stores : ∀ {b}, t.Created ⟨.kvStore, b⟩ → ⟨.kvStore, b⟩ ∉ t.user →
    s.Created ⟨.kvStore, b⟩ ∧ ⟨.kvStore, b⟩ ∉ s.user
  objects : ∀ {x ctx kv}, t.objectAt x = some (.keyValue ctx kv) →
    (ctx = .null ∧ kv = .null) ∨ ∃ y, s.objectAt y = some (.keyValue ctx kv)
  kept : ∀ {a b}, s.HasPair a b → t.HasPair a b ∨ t.DestroyedPair a b

namespace MovesPairs

variable {s t u : State}

theorem rfl' (s : State) : MovesPairs s s :=
  ⟨List.prefix_refl _, rfl, id, fun h h' => ⟨h, h'⟩, fun h => .inr ⟨_, h⟩, .inl⟩

theorem trans (h : MovesPairs s t) (h' : MovesPairs t u) : MovesPairs s u where
  destroyed := h.destroyed.trans h'.destroyed
  parents := h'.parents.trans h.parents
  created hc := h'.created (h.created hc)
  stores hc hu := by
    obtain ⟨hc, hu⟩ := h'.stores hc hu
    exact h.stores hc hu
  objects hx := by
    obtain hnull | ⟨y, hy⟩ := h'.objects hx
    · exact .inl hnull
    · exact h.objects hy
  kept hp := by
    obtain hp | hgone := h.kept hp
    · exact h'.kept hp
    · exact .inr (hgone.trans h'.destroyed.isInfix)

instance : IsPreorder State MovesPairs where
  refl := rfl'
  trans := fun _ _ _ => trans

/-- The objects are as before, but for those that have no pair. -/
theorem of_objects (hdestroyed : s.destroyed <+: t.destroyed) (hparents : t.parents = s.parents)
    (hcreated : ∀ {h}, s.Created h → t.Created h)
    (hstores : ∀ {b}, t.Created ⟨.kvStore, b⟩ → ⟨.kvStore, b⟩ ∉ t.user →
      s.Created ⟨.kvStore, b⟩ ∧ ⟨.kvStore, b⟩ ∉ s.user)
    (hobjects : ∀ x ctx kv, t.objectAt x = some (.keyValue ctx kv) ↔
      s.objectAt x = some (.keyValue ctx kv)) : MovesPairs s t where
  destroyed := hdestroyed
  parents := hparents
  created := hcreated
  stores := hstores
  objects hx := .inr ⟨_, (hobjects _ _ _).mp hx⟩
  kept := by
    rintro a b ⟨x, hx⟩
    exact .inl ⟨x, (hobjects _ _ _).mpr hx⟩

/-- Neither the objects nor the native ones have changed. -/
theorem of_eq (hdestroyed : s.destroyed <+: t.destroyed) (hparents : t.parents = s.parents)
    (htypes : t.types = s.types) (huser : ∀ {b}, ⟨.kvStore, b⟩ ∈ s.user →
      ⟨.kvStore, b⟩ ∈ t.user) (hobjects : t.objects = s.objects) : MovesPairs s t := by
  refine of_objects hdestroyed hparents (fun hc => ?_) (fun hc hu => ⟨?_, fun hmem => hu (huser hmem)⟩)
    fun x ctx kv => ?_
  · rwa [State.Created, htypes]
  · rwa [State.Created, htypes] at hc
  · rw [State.objectAt, hobjects, State.objectAt]

end MovesPairs

/-! ## The primitive operations -/

section Primitives

variable {s t : State} {τ : NativeType} {x : ℕ} {w : Wrapper}

/-- The object is not one of class `key_value` with a handle. -/
def Wrapper.Pairless (w : Wrapper) : Prop :=
  ∀ ctx kv, w = .keyValue ctx kv → ctx = .null ∧ kv = .null

theorem movesPairs_destroy (s : State) (p : Pointer τ) : MovesPairs s (s.destroy p) :=
  .of_eq (List.prefix_append _ _) rfl rfl id rfl

theorem created_append {types : List NativeType} {h : Handle} (hc : s.Created h) :
    (s.types ++ types)[h.address]? = some h.type :=
  List.getElem?_append_left (List.getElem?_eq_some_iff.mp hc).1 ▸ hc

theorem store_of_append {types : List NativeType} (htypes : .kvStore ∉ types) {b : ℕ}
    (hc : (s.types ++ types)[b]? = some .kvStore) : s.types[b]? = some .kvStore := by
  rw [List.getElem?_append] at hc
  split at hc
  · exact hc
  · exact absurd (List.mem_of_getElem? hc) htypes

theorem movesPairs_types (s : State) {types : List NativeType} (htypes : .kvStore ∉ types) :
    MovesPairs s { s with types := s.types ++ types } :=
  .of_objects (List.prefix_refl _) rfl created_append
    (fun hc hu => ⟨store_of_append htypes hc, hu⟩) fun _ _ _ => Iff.rfl

theorem movesPairs_create (s : State) (hτ : τ ≠ .kvStore) : MovesPairs s (s.create τ).2 :=
  movesPairs_types s fun h => hτ (List.mem_singleton.mp h).symm

/-- What the user makes himself, he holds. -/
theorem movesPairs_make (s : State) (τ : NativeType) :
    MovesPairs s ((s.create τ).2.give (s.create τ).1) := by
  refine .of_objects (List.prefix_refl _) rfl created_append (fun {b} hc hu => ?_) fun _ _ _ => Iff.rfl
  have hu : ⟨.kvStore, b⟩ ∉ (s.create τ).1.handles ++ s.user := hu
  rw [List.mem_append, not_or] at hu
  refine ⟨?_, hu.2⟩
  have hc : (s.types ++ [τ])[b]? = some .kvStore := hc
  rw [List.getElem?_append] at hc
  split at hc
  · exact hc
  · -- it would be the new one
    rename_i hlt
    have hzero := (List.getElem?_eq_some_iff.mp hc).1
    rw [List.length_singleton] at hzero
    have hb : b = s.types.length := by omega
    have hτ : .kvStore = τ := List.mem_singleton.mp (List.mem_of_getElem? hc)
    subst hτ hb
    exact absurd (List.mem_singleton.mpr rfl) hu.1

theorem movesPairs_give (s : State) (p : Pointer τ) : MovesPairs s (s.give p) :=
  .of_eq (List.prefix_refl _) rfl rfl (fun hmem => List.mem_append_right _ hmem) rfl

theorem movesPairs_take {p : Pointer τ} (hτ : τ ≠ .kvStore) (ht : s.take p = some t) :
    MovesPairs s t := by
  cases p with
  | null =>
    obtain rfl := Option.some.inj ht
    exact .rfl' _
  | addr address =>
    simp only [State.take, Option.ite_none_right_eq_some, Option.some.injEq] at ht
    obtain ⟨-, rfl⟩ := ht
    refine .of_eq (List.prefix_refl _) rfl rfl (fun {b} hmem => ?_) rfl
    have hne : (⟨.kvStore, b⟩ : Handle) ≠ ⟨τ, address⟩ := fun h => hτ (congrArg Handle.type h).symm
    exact (List.mem_erase_of_ne hne).mpr hmem

theorem objectAt_append (s : State) (ws : List (Option Wrapper)) (x : ℕ) :
    State.objectAt { s with objects := s.objects ++ ws } x =
      if x < s.objects.length then s.objectAt x else (ws[x - s.objects.length]?).join := by
  rw [State.objectAt, List.getElem?_append]
  split <;> rfl

theorem objectAt_allocate_ne {y : ℕ} (hy : s.objects.length ≠ y) :
    (s.allocate w).2.objectAt y = s.objectAt y := by
  refine (objectAt_append s [some w] y).trans ?_
  split
  · exact rfl
  · have hpast : [some w][y - s.objects.length]? = none :=
      List.getElem?_eq_none (by simp only [List.length_singleton]; omega)
    have hend : s.objects[y]? = none := List.getElem?_eq_none (by omega)
    rw [hpast, State.objectAt, hend]

/-- New objects without a pair. -/
theorem movesPairs_append (s : State) {ws : List (Option Wrapper)}
    (hws : ∀ w, some w ∈ ws → w.Pairless) :
    MovesPairs s { s with objects := s.objects ++ ws } where
  destroyed := List.prefix_refl _
  parents := rfl
  created := id
  stores hc hu := ⟨hc, hu⟩
  objects {x ctx kv} hx := by
    rw [objectAt_append] at hx
    split at hx
    · exact .inr ⟨x, hx⟩
    · have hmem := List.mem_of_getElem? (Option.join_eq_some_iff.mp hx)
      exact .inl (hws _ hmem ctx kv rfl)
  kept := by
    rintro a b ⟨x, hx⟩
    refine .inl ⟨x, ?_⟩
    rw [objectAt_append, if_pos (List.getElem?_eq_some_iff.mp (getElem?_of_objectAt hx)).1]
    exact hx

theorem movesPairs_allocate (s : State) (hw : w.Pairless) : MovesPairs s (s.allocate w).2 := by
  refine movesPairs_append s fun w' hmem => ?_
  rw [List.mem_singleton, Option.some.injEq] at hmem
  exact hmem ▸ hw

/-- An object without a pair is replaced by another one, or its lifetime ends. -/
theorem movesPairs_setObject {o : Option Wrapper} (hw : s.objectAt x = some w)
    (hclass : ∀ ctx kv, w ≠ .keyValue ctx kv) (ho : ∀ w' ∈ o, w'.Pairless) :
    MovesPairs s (s.setObject x o) where
  destroyed := List.prefix_refl _
  parents := rfl
  created := id
  stores hc hu := ⟨hc, hu⟩
  objects {y ctx kv} hy := by
    by_cases hxy : x = y
    · subst hxy
      rw [objectAt_setObject_self hw] at hy
      exact .inl (ho _ hy ctx kv rfl)
    · rw [objectAt_setObject_ne hxy] at hy
      exact .inr ⟨y, hy⟩
  kept := by
    rintro a b ⟨y, hy⟩
    have hxy : x ≠ y := by
      rintro rfl
      exact hclass _ _ (Option.some.inj (hw.symm.trans hy))
    refine .inl ⟨y, ?_⟩
    rw [objectAt_setObject_ne hxy, hy]

end Primitives

/-! ## Members of other classes -/

section Owners

variable {s t : State} {τ : NativeType} {x other : ℕ} {w : Wrapper}

/-- An owner of another class than `key_value`. -/
structure Owner.Foreign (c : Owner τ) : Prop where
  get : ∀ ctx kv, c.get (.keyValue ctx kv) = none
  set : ∀ p w, (c.set p w).Pairless
  wrap : ∀ p, (c.wrap p).Pairless
  type : τ ≠ .kvStore

theorem RawClass.foreign (c : RawClass) : c.owner.Foreign := by
  cases c
  all_goals
    refine ⟨fun _ _ => rfl, fun p w ctx kv h => ?_, fun p ctx kv h => ?_, by simp [RawClass.type]⟩
    · exact absurd h (by simp [owner, messageMsg, headerHeader, kvEntryEntry, kvWatcherWatcher,
        jsPullConsumerSub, jsPushConsumerSub, Owner.of])
    · exact absurd h (by simp [owner, messageMsg, headerHeader, kvEntryEntry, kvWatcherWatcher,
        jsPullConsumerSub, jsPushConsumerSub, Owner.of])

theorem jetstreamCtx_foreign : jetstreamCtx.Foreign := by
  refine ⟨fun _ _ => rfl, fun p w ctx kv h => ?_, fun p ctx kv h => ?_, by simp⟩
  · exact absurd h (by simp [jetstreamCtx, Owner.of])
  · exact absurd h (by simp [jetstreamCtx, Owner.of])

variable {c : Owner τ}

theorem movesPairs_store (hc : c.Foreign) (s : State) (x : ℕ) (p : Pointer τ) :
    MovesPairs s (s.store c.toMember x p) := by
  obtain ⟨w, q, hw, hq⟩ | ⟨-, hstore⟩ := load_store_cases c.toMember s x
  · rw [store_of_get hw hq]
    refine movesPairs_setObject hw (fun ctx kv h => ?_) fun w' hw' => ?_
    · rw [h, hc.get] at hq
      exact absurd hq (by simp)
    · rw [Option.mem_some_iff] at hw'
      exact hw' ▸ hc.set p w
  · rw [hstore]
    exact .rfl' s

theorem movesPairs_reset (hc : c.Foreign) (s : State) (x : ℕ) (p : Pointer τ) :
    MovesPairs s (c.toMember.reset x p s) :=
  (movesPairs_store hc s x p).trans (movesPairs_destroy _ _)

theorem movesPairs_uniqueMoveAssign (hc : c.Foreign) (s : State) (x other : ℕ) :
    MovesPairs s (c.toMember.uniqueMoveAssign x other s) :=
  (movesPairs_store hc s other .null).trans (movesPairs_reset hc _ x _)

theorem movesPairs_moveAssign (hc : c.Foreign) (s : State) (x other : ℕ) :
    MovesPairs s (c.toMember.moveAssign x other s) := by
  by_cases hx : x = other
  · rw [Member.moveAssign, if_neg (not_not_intro hx)]
    exact .rfl' s
  · rw [Member.moveAssign, if_pos hx]
    refine (movesPairs_destroy s (s.load c.toMember x)).trans ?_
    exact (movesPairs_store hc _ x _).trans (movesPairs_store hc _ other .null)

theorem movesPairs_uniqueMoveConstruct (hc : c.Foreign) (s : State) (other : ℕ) :
    MovesPairs s (c.uniqueMoveConstruct other s).2 :=
  (movesPairs_store hc s other .null).trans (movesPairs_allocate _ (hc.wrap _))

theorem movesPairs_moveConstruct (hc : c.Foreign) (s : State) (other : ℕ) :
    MovesPairs s (c.moveConstruct other s).2 :=
  (movesPairs_allocate s (hc.wrap _)).trans (movesPairs_store hc _ other .null)

theorem movesPairs_destruct (c : Owner τ) (hw : s.objectAt x = some w)
    (hclass : ∀ ctx kv, w ≠ .keyValue ctx kv) : MovesPairs s (c.destruct x s) := by
  refine (movesPairs_destroy s (s.load c.toMember x)).trans ?_
  exact movesPairs_setObject (s := s.destroy (s.load c.toMember x)) hw hclass fun w' hw' =>
    absurd hw' (by simp)

end Owners

/-! ## `key_value` -/

namespace KeyValue

variable {s : State} {x other : ℕ} {ctx ctx' : Pointer .jsCtx} {kv kv' : Pointer .kvStore}

/-- `destroy_self` destroys the store first. -/
theorem destroySelf_eq (hw : s.objectAt x = some (.keyValue ctx kv)) :
    destroySelf x s = { s with
      destroyed := s.destroyed ++ kv.handles ++ ctx.handles
      objects := s.objects.set x (some (.keyValue .null .null)) } := by
  have hkv : s.load keyValueKv x = kv := load_of_get hw rfl
  have hfirst : (s.destroy kv).store keyValueKv x .null =
      (s.destroy kv).setObject x (some (.keyValue ctx .null)) :=
    store_of_get (s := s.destroy kv) (m := keyValueKv) hw rfl
  have hobject : ((s.destroy kv).setObject x (some (.keyValue ctx .null))).objectAt x =
      some (.keyValue ctx .null) := objectAt_setObject_self (s := s.destroy kv) hw
  have hctx : ((s.destroy kv).setObject x (some (.keyValue ctx .null))).load keyValueCtx x = ctx :=
    load_of_get hobject rfl
  have hsecond := store_of_get (s := ((s.destroy kv).setObject x
    (some (.keyValue ctx .null))).destroy ctx) (m := keyValueCtx) (p := .null) hobject rfl
  simp only [destroySelf, hkv, hfirst, hctx]
  rw [hsecond]
  simp only [State.setObject, State.destroy, List.set_set, keyValueCtx]

/-- The handles of the pair go to the log in this order. -/
theorem movesPairs_destroySelf (hw : s.objectAt x = some (.keyValue ctx kv)) :
    MovesPairs s (destroySelf x s) := by
  have hself := objectAt_destroySelf hw
  have hne {y : ℕ} (hxy : x ≠ y) : (destroySelf x s).objectAt y = s.objectAt y :=
    objectAt_destroySelf_ne hxy
  rw [destroySelf_eq hw] at *
  refine ⟨?_, rfl, id, fun hc hu => ⟨hc, hu⟩, fun {y c k} hy => ?_, fun {a b} hp => ?_⟩
  · exact (List.prefix_append _ _).trans (List.prefix_append _ _)
  · by_cases hxy : x = y
    · subst hxy
      obtain ⟨rfl, rfl⟩ := Wrapper.keyValue.inj (Option.some.inj (hself.symm.trans hy))
      exact .inl ⟨rfl, rfl⟩
    · rw [hne hxy] at hy
      exact .inr ⟨y, hy⟩
  · obtain ⟨y, hy⟩ := hp
    by_cases hxy : x = y
    · subst hxy
      obtain ⟨rfl, rfl⟩ := Wrapper.keyValue.inj (Option.some.inj (hw.symm.trans hy))
      refine .inr ⟨s.destroyed, [], ?_⟩
      simp [Pointer.handles]
    · exact .inl ⟨y, by rw [hne hxy, hy]⟩

theorem movesPairs_destruct (hw : s.objectAt x = some (.keyValue ctx kv)) :
    MovesPairs s (destruct x s) := by
  have hdestroy := movesPairs_destroySelf hw
  have hself := objectAt_destroySelf hw
  have hgone : (destruct x s).objectAt x = none := objectAt_setObject_self hself
  have hne {y : ℕ} (hxy : x ≠ y) : (destruct x s).objectAt y = (destroySelf x s).objectAt y :=
    objectAt_setObject_ne hxy
  refine hdestroy.trans ⟨List.prefix_refl _, rfl, id, fun hc hu => ⟨hc, hu⟩, fun {y c k} hy => ?_,
    fun {a b} hp => ?_⟩
  · by_cases hxy : x = y
    · subst hxy
      exact absurd (hgone.symm.trans hy) (by simp)
    · rw [hne hxy] at hy
      exact .inr ⟨y, hy⟩
  · obtain ⟨y, hy⟩ := hp
    have hxy : x ≠ y := by
      rintro rfl
      exact absurd (hself.symm.trans hy) (by simp)
    exact .inl ⟨y, by rw [hne hxy, hy]⟩

/-- A pair goes from one object to another one that had none. -/
theorem movesPairs_taken {t : State} (hsource : s.objectAt other = some (.keyValue ctx kv))
    (hx : ∀ a b, s.objectAt x ≠ some (.keyValue (.addr a) (.addr b)))
    (hto : t.objectAt x = some (.keyValue ctx kv))
    (hfrom : t.objectAt other = some (.keyValue .null .null))
    (hrest : ∀ y, x ≠ y → other ≠ y → t.objectAt y = s.objectAt y)
    (hdestroyed : t.destroyed = s.destroyed) (htypes : t.types = s.types)
    (huser : t.user = s.user) (hparents : t.parents = s.parents) : MovesPairs s t where
  destroyed := hdestroyed ▸ List.prefix_refl _
  parents := hparents
  created hc := by rwa [State.Created, htypes]
  stores hc hu := by
    rw [State.Created, htypes] at hc
    exact ⟨hc, huser ▸ hu⟩
  objects {y c k} hy := by
    by_cases hxy : x = y
    · subst hxy
      obtain ⟨rfl, rfl⟩ := Wrapper.keyValue.inj (Option.some.inj (hto.symm.trans hy))
      exact .inr ⟨other, hsource⟩
    · by_cases hother : other = y
      · subst hother
        obtain ⟨rfl, rfl⟩ := Wrapper.keyValue.inj (Option.some.inj (hfrom.symm.trans hy))
        exact .inl ⟨rfl, rfl⟩
      · rw [hrest y hxy hother] at hy
        exact .inr ⟨y, hy⟩
  kept := by
    rintro a b ⟨y, hy⟩
    by_cases hother : other = y
    · subst hother
      obtain ⟨rfl, rfl⟩ := Wrapper.keyValue.inj (Option.some.inj (hsource.symm.trans hy))
      exact .inl ⟨x, hto⟩
    · have hxy : x ≠ y := by
        rintro rfl
        exact hx a b hy
      exact .inl ⟨y, by rw [hrest y hxy hother, hy]⟩

/-- Two assignments to the members of an object. -/
theorem objectAt_assign (hw : s.objectAt x = some (.keyValue ctx kv)) :
    ((s.store keyValueCtx x ctx').store keyValueKv x kv').objectAt x =
      some (.keyValue ctx' kv') :=
  objectAt_store_self (m := keyValueKv) (objectAt_store_self (m := keyValueCtx) hw rfl) rfl

theorem assign_fields (s : State) (x : ℕ) (ctx : Pointer .jsCtx) (kv : Pointer .kvStore) :
    let t := (s.store keyValueCtx x ctx).store keyValueKv x kv
    t.user = s.user ∧ t.destroyed = s.destroyed ∧ t.types = s.types ∧ t.parents = s.parents := by
  intro t
  obtain ⟨huser, hdestroyed, htypes, hparents⟩ := store_fields keyValueCtx s x ctx
  obtain ⟨huser', hdestroyed', htypes', hparents'⟩ :=
    store_fields keyValueKv (s.store keyValueCtx x ctx) x kv
  exact ⟨huser'.trans huser, hdestroyed'.trans hdestroyed, htypes'.trans htypes,
    hparents'.trans hparents⟩

theorem movesPairs_moveConstruct (hw : s.objectAt other = some (.keyValue ctx kv)) :
    MovesPairs s (moveConstruct other s).2 := by
  have hlt := (List.getElem?_eq_some_iff.mp (getElem?_of_objectAt hw)).1
  have hctx : s.load keyValueCtx other = ctx := load_of_get hw rfl
  have hkv : s.load keyValueKv other = kv := load_of_get hw rfl
  let u := (s.allocate (.keyValue ctx kv)).2
  have hmove : (moveConstruct other s).2 =
      (u.store keyValueCtx other .null).store keyValueKv other .null := by
    rw [moveConstruct, hctx, hkv]
  have hsource : u.objectAt other = some (.keyValue ctx kv) := objectAt_allocate_of_some hw
  have hne : other ≠ s.objects.length := by omega
  obtain ⟨huser, hdestroyed, htypes, hparents⟩ := assign_fields u other .null .null
  rw [hmove]
  refine movesPairs_taken (x := s.objects.length) hw (fun a b h => ?_) ?_ (objectAt_assign hsource)
    (fun y hxy hother => ?_) hdestroyed htypes huser hparents
  · have hlt := (List.getElem?_eq_some_iff.mp (getElem?_of_objectAt h)).1
    omega
  · rw [objectAt_store_ne hne, objectAt_store_ne hne]
    exact objectAt_allocate_self
  · rw [objectAt_store_ne hother, objectAt_store_ne hother]
    exact objectAt_allocate_ne hxy

theorem movesPairs_moveAssign (hw : s.objectAt x = some (.keyValue ctx kv))
    (hw' : s.objectAt other = some (.keyValue ctx' kv')) :
    MovesPairs s (moveAssign x other s) := by
  by_cases hx : x = other
  · rw [moveAssign, if_neg (not_not_intro hx)]
    exact .rfl' s
  · have hdestroy := movesPairs_destroySelf hw
    have hthis := objectAt_destroySelf hw
    have hsource : (destroySelf x s).objectAt other = some (.keyValue ctx' kv') := by
      rw [objectAt_destroySelf_ne hx, hw']
    rw [moveAssign, if_pos hx]
    generalize destroySelf x s = t at *
    have hctx : t.load keyValueCtx other = ctx' := load_of_get hsource rfl
    have hkv : (t.store keyValueCtx x ctx').load keyValueKv other = kv' := by
      rw [load_store_ne keyValueKv hx]
      exact load_of_get hsource rfl
    simp only [hctx, hkv]
    obtain ⟨huser, hdestroyed, htypes, hparents⟩ := assign_fields t x ctx' kv'
    have hsource' : ((t.store keyValueCtx x ctx').store keyValueKv x kv').objectAt other =
        some (.keyValue ctx' kv') := by
      rw [objectAt_store_ne hx, objectAt_store_ne hx, hsource]
    have hto : ((t.store keyValueCtx x ctx').store keyValueKv x kv').objectAt x =
        some (.keyValue ctx' kv') := objectAt_assign hthis
    have hrest (y : ℕ) (hxy : x ≠ y) :
        ((t.store keyValueCtx x ctx').store keyValueKv x kv').objectAt y = t.objectAt y := by
      rw [objectAt_store_ne hxy, objectAt_store_ne hxy]
    generalize (t.store keyValueCtx x ctx').store keyValueKv x kv' = u at *
    obtain ⟨huser', hdestroyed', htypes', hparents'⟩ := assign_fields u other .null .null
    refine hdestroy.trans (movesPairs_taken (x := x) hsource (fun a b h => ?_) ?_
      (objectAt_assign hsource') (fun y hxy hother => ?_) (hdestroyed'.trans hdestroyed)
      (htypes'.trans htypes) (huser'.trans huser) (hparents'.trans hparents))
    · exact absurd (hthis.symm.trans h) (by simp)
    · rw [objectAt_store_ne (Ne.symm hx), objectAt_store_ne (Ne.symm hx), hto]
    · rw [objectAt_store_ne hother, objectAt_store_ne hother, hrest y hxy]

end KeyValue

section Classes

variable {s : State} {x other : ℕ} {w w' : Wrapper}

theorem movesPairs_classMoveConstruct (hw : s.objectAt other = some w) :
    MovesPairs s (w.cls.moveConstruct other s).2 := by
  cases w with
  | message p => exact movesPairs_uniqueMoveConstruct (RawClass.foreign .message) s other
  | header p => exact movesPairs_uniqueMoveConstruct (RawClass.foreign .header) s other
  | kvEntry p => exact movesPairs_moveConstruct (RawClass.foreign .kvEntry) s other
  | kvWatcher p => exact movesPairs_moveConstruct (RawClass.foreign .kvWatcher) s other
  | keyValue ctx kv => exact KeyValue.movesPairs_moveConstruct hw
  | jetstream p => exact movesPairs_moveConstruct jetstreamCtx_foreign s other
  | jsPullConsumer p => exact movesPairs_moveConstruct (RawClass.foreign .jsPullConsumer) s other
  | jsPushConsumer p => exact movesPairs_moveConstruct (RawClass.foreign .jsPushConsumer) s other

theorem movesPairs_classMoveAssign (hw : s.objectAt x = some w) (hw' : s.objectAt other = some w')
    (hcls : w.cls = w'.cls) : MovesPairs s (w.cls.moveAssign x other s) := by
  cases w with
  | message p => exact movesPairs_uniqueMoveAssign (RawClass.foreign .message) s x other
  | header p => exact movesPairs_uniqueMoveAssign (RawClass.foreign .header) s x other
  | kvEntry p => exact movesPairs_moveAssign (RawClass.foreign .kvEntry) s x other
  | kvWatcher p => exact movesPairs_moveAssign (RawClass.foreign .kvWatcher) s x other
  | keyValue ctx kv =>
    cases w' with
    | keyValue ctx' kv' => exact KeyValue.movesPairs_moveAssign hw hw'
    | _ => exact absurd hcls (by simp [Wrapper.cls])
  | jetstream p => exact movesPairs_moveAssign jetstreamCtx_foreign s x other
  | jsPullConsumer p => exact movesPairs_moveAssign (RawClass.foreign .jsPullConsumer) s x other
  | jsPushConsumer p => exact movesPairs_moveAssign (RawClass.foreign .jsPushConsumer) s x other

theorem movesPairs_classDestruct (hw : s.objectAt x = some w) :
    MovesPairs s (w.cls.destruct x s) := by
  cases w with
  | keyValue ctx kv => exact KeyValue.movesPairs_destruct hw
  | message p => exact movesPairs_destruct messageMsg hw (by simp)
  | header p => exact movesPairs_destruct headerHeader hw (by simp)
  | kvEntry p => exact movesPairs_destruct kvEntryEntry hw (by simp)
  | kvWatcher p => exact movesPairs_destruct kvWatcherWatcher hw (by simp)
  | jetstream p => exact movesPairs_destruct jetstreamCtx hw (by simp)
  | jsPullConsumer p => exact movesPairs_destruct jsPullConsumerSub hw (by simp)
  | jsPushConsumer p => exact movesPairs_destruct jsPushConsumerSub hw (by simp)

theorem movesPairs_destructAt (s : State) (x : ℕ) : MovesPairs s (destruct x s) := by
  unfold destruct
  split
  · rename_i w hw
    exact movesPairs_classDestruct hw
  · exact .rfl' s

theorem movesPairs_destructAll (s : State) (locals : List ℕ) :
    MovesPairs s (s.destructAll locals) := by
  induction locals generalizing s with
  | nil => exact .rfl' s
  | cons x locals ih => exact (movesPairs_destructAt s x).trans (ih _)

end Classes

/-! ## The calls -/

section Calls

variable (texts : ErrorTexts Unit) {τ : NativeType}

theorem keeping_check (status : Status) (context : String) :
    Keeping MovesPairs (check texts status context) :=
  fun s => .rfl' s

theorem movesPairs_native (hτ : τ ≠ .kvStore) (status : Status) (s : State) :
    MovesPairs s (s.native τ status).2 := by
  unfold State.native
  split
  · exact movesPairs_create s hτ
  · exact .rfl' s

theorem movesPairs_nativeReply (hτ : τ ≠ .kvStore) (reply : Reply) (s : State) :
    MovesPairs s (s.nativeReply τ reply).2 := by
  unfold State.nativeReply
  split
  · exact movesPairs_native hτ reply.status s
  · exact .rfl' s

theorem keeping_load {α : Type} (f : State → α) :
    Keeping MovesPairs (act (fun s => (f s, s)) : Effect State Error α) :=
  Keeping.act fun s => .rfl' s

theorem keeping_checkMember (m : Member τ) (this : ℕ) (what : String) :
    Keeping MovesPairs (checkMember m this what) := by
  refine (keeping_load _).bind fun p => ?_
  split
  · exact Keeping.throw _
  · exact Keeping.pure _

theorem keeping_wrapNative (c : RawClass) (context : String) (reply : Reply) :
    Keeping MovesPairs (wrapNative texts c context reply) := by
  refine (Keeping.act (movesPairs_nativeReply c.foreign.type reply)).bind fun raw => ?_
  refine (keeping_check texts _ _).bind fun _ => ?_
  exact Keeping.act fun s => movesPairs_allocate s (c.foreign.wrap raw)

theorem keeping_callByValue {α : Type} {f : ℕ → Effect State Error α}
    (hf : ∀ msg, Keeping MovesPairs (f msg)) (x : ℕ) : Keeping MovesPairs (callByValue f x) := by
  have hmove : Keeping MovesPairs (act (messageMsg.uniqueMoveConstruct x) : Effect State Error ℕ) :=
    Keeping.act fun s => movesPairs_uniqueMoveConstruct (RawClass.foreign .message) s x
  exact hmove.bind fun msg => (hf msg).guarded fun s => movesPairs_destructAt s msg

theorem keeping_release (msg : ℕ) : Keeping MovesPairs
    (act (messageMsg.release msg) : Effect State Error (Pointer .natsMsg)) :=
  Keeping.act fun s => movesPairs_store (RawClass.foreign .message) s msg .null

theorem keeping_destroy (p : Pointer τ) :
    Keeping MovesPairs (update (·.destroy p) : Effect State Error Unit) :=
  Keeping.update fun s => movesPairs_destroy s p

theorem keeping_native (hτ : τ ≠ .kvStore) (status : Status) : Keeping MovesPairs
    (act (State.native τ status) : Effect State Error (Pointer τ)) :=
  Keeping.act (movesPairs_native hτ status)

theorem Connection.keeping_publish (status : Status) (msg : ℕ) :
    Keeping MovesPairs (Connection.publish texts status msg) :=
  (keeping_release msg).bind fun raw => (keeping_destroy raw).bind fun _ =>
    keeping_check texts status _

theorem Connection.keeping_request (status : Status) (msg : ℕ) :
    Keeping MovesPairs (Connection.request texts status msg) := by
  refine (keeping_release msg).bind fun raw => ?_
  refine (keeping_native (by simp) status).bind fun reply => ?_
  refine (keeping_destroy raw).bind fun _ => (keeping_check texts status _).bind fun _ => ?_
  exact Keeping.act fun s => movesPairs_allocate s ((RawClass.foreign .message).wrap reply)

theorem Jetstream.keeping_publishMsg (this : ℕ) (status : Status) (msg : ℕ) :
    Keeping MovesPairs (Jetstream.publishMsg texts this status msg) := by
  refine (keeping_checkMember jetstreamCtx.toMember this _).bind fun _ => ?_
  refine (keeping_release msg).bind fun raw => ?_
  refine (keeping_native (by simp) status).bind fun ack => ?_
  refine (keeping_destroy raw).bind fun _ => (keeping_check texts status _).bind fun _ => ?_
  exact keeping_destroy ack

theorem KeyValue.keeping_deleteBucket (jetStream deleteKeyValue : Status) :
    Keeping MovesPairs (deleteBucket texts jetStream deleteKeyValue) := by
  refine (keeping_native (by simp) jetStream).bind fun ctx => ?_
  refine (keeping_check texts jetStream _).bind fun _ => ?_
  refine Keeping.bind ?_ fun _ => keeping_destroy ctx
  exact (keeping_check texts deleteKeyValue _).unwinding fun s => movesPairs_destroy s ctx

end Calls

/-! ## Calls that return wrappers -/

section Returning

variable (texts : ErrorTexts Unit) {τ : NativeType}

theorem KeyValue.keeping_toNativeWatchOptions (options : Option Status) :
    Keeping MovesPairs (toNativeWatchOptions texts options) := by
  cases options with
  | none => exact Keeping.pure _
  | some status => exact keeping_check texts status _

theorem KeyValue.keeping_makeWatcher (context : String) (this : ℕ) (options : Option Status)
    (reply : Reply) : Keeping MovesPairs (makeWatcher texts context this options reply) := by
  refine (keeping_checkMember keyValueKv this _).bind fun _ => ?_
  exact (keeping_toNativeWatchOptions texts options).bind fun _ =>
    keeping_wrapNative texts .kvWatcher context reply

theorem movesPairs_nativeList (hτ : τ ≠ .kvStore) (status : Status) (shape : Option (List Bool))
    (s : State) : MovesPairs s (State.nativeList τ status shape s).2 := by
  have hentries (shape : List Bool) (s : State) : MovesPairs s (State.createEntries τ shape s).2 := by
    induction shape generalizing s with
    | nil => exact .rfl' s
    | cons entry shape ih =>
      cases entry with
      | true => exact (movesPairs_create s hτ).trans (ih _)
      | false => exact ih s
  unfold State.nativeList
  split
  · cases shape with
    | none => exact .rfl' s
    | some shape => exact hentries shape s
  · exact .rfl' s

theorem movesPairs_destroyList (s : State) (list : NativeList τ) :
    MovesPairs s (s.destroyList list) := by
  rw [State.destroyList_eq]
  exact .of_eq (List.prefix_append _ _) rfl rfl id rfl

theorem JsPullConsumer.keeping_next (natsTimeout : Status) (this : ℕ) (status : Status)
    (shape : Option (List Bool)) :
    Keeping MovesPairs (next texts natsTimeout this status shape) := by
  refine (keeping_load _).bind fun sub => ?_
  split
  · exact Keeping.throw _
  · refine (Keeping.act (movesPairs_nativeList (by simp) status shape)).bind fun list => ?_
    refine (keeping_check texts status _).bind fun _ s => ?_
    by_cases hcount : list.count < 1
    · rw [outcome_takeFirst_of_empty natsTimeout hcount]
      exact movesPairs_destroyList s list
    · rw [outcome_takeFirst natsTimeout hcount]
      have hmessage : MovesPairs s (s.allocate (.message (list.get 0))).2 :=
        movesPairs_allocate s ((RawClass.foreign .message).wrap (list.get 0))
      exact hmessage.trans (movesPairs_destroyList _ _)

theorem Call.keeping_run (c : Call) (reply : Reply) : Keeping MovesPairs (c.run texts reply) := by
  have hwrap (c : RawClass) (context : String) := keeping_wrapNative texts c context reply
  have hcheck {σ : NativeType} {m : Member σ} {this : ℕ} {what : String}
      {p : Effect State Error ℕ} (hp : Keeping MovesPairs p) :
      Keeping MovesPairs (do checkMember m this what; p) :=
    (keeping_checkMember m this what).bind fun _ => hp
  cases c with
  | requestSync size =>
    by_cases hsize : size > intMax
    · rw [run, Connection.requestSync, if_pos hsize]
      exact Keeping.throw _
    · rw [run, Connection.requestSync, if_neg hsize]
      exact hwrap .message _
  | requestString => exact hwrap .message _
  | createMessage => exact hwrap .message _
  | createHeader => exact hwrap .header _
  | nextMessage initialized =>
    cases initialized with
    | true => exact hwrap .message _
    | false => exact Keeping.throw _
  | nextPull this natsTimeout shape =>
    exact JsPullConsumer.keeping_next texts natsTimeout this reply.status shape
  | nextPush this => exact hcheck (hwrap .message _)
  | pullSubscribe this => exact hcheck (m := jetstreamCtx.toMember) (hwrap .jsPullConsumer _)
  | pushSubscribe this => exact hcheck (m := jetstreamCtx.toMember) (hwrap .jsPushConsumer _)
  | subscribe this =>
    have hpush : Keeping MovesPairs (Jetstream.pushSubscribe texts this reply) :=
      hcheck (m := jetstreamCtx.toMember) (hwrap .jsPushConsumer _)
    exact hcheck (m := jetstreamCtx.toMember) hpush
  | getMsg this => exact hcheck (m := jetstreamCtx.toMember) (hwrap .message _)
  | getLastMsg this => exact hcheck (m := jetstreamCtx.toMember) (hwrap .message _)
  | get this => exact hcheck (m := keyValueKv) (hwrap .kvEntry _)
  | getRevision this => exact hcheck (m := keyValueKv) (hwrap .kvEntry _)
  | watch this options | watchMulti this options | watchAll this options =>
    exact KeyValue.keeping_makeWatcher texts _ this options reply
  | nextEntry this => exact hcheck (hwrap .kvEntry _)

theorem keeping_raise {α : Type} {p : Effect State Error α} (hp : Keeping MovesPairs p) :
    Keeping MovesPairs (raise p) := by
  intro s
  rw [outcome_raise]
  exact hp s

theorem keeping_collectNative (c : RawClass) (context : String) (supply : Supply) :
    Keeping MovesPairs (collectNative texts c.owner context supply) := by
  refine (Keeping.act (movesPairs_nativeList c.foreign.type _ _)).bind fun list => ?_
  refine (keeping_raise (keeping_check texts _ _)).bind fun _ s => ?_
  cases supply.reserve with
  | true =>
    rw [outcome_collect]
    refine movesPairs_append s fun w hw => ?_
    obtain ⟨p, -, hp⟩ := List.mem_map.mp hw
    exact Option.some.inj hp ▸ c.foreign.wrap p
  | false =>
    rw [outcome_collect_badAlloc]
    exact .of_eq (List.prefix_append _ _) rfl rfl id rfl

theorem BatchCall.keeping_run (c : BatchCall) (supply : Supply) :
    Keeping MovesPairs (c.run texts supply) := by
  cases c with
  | fetch initialized | fetchRequest initialized =>
    refine Keeping.bind (keeping_raise ?_) fun _ => keeping_collectNative texts .message _ supply
    cases initialized with
    | true => exact Keeping.pure _
    | false => exact Keeping.throw _
  | history this options =>
    refine (keeping_raise (keeping_checkMember keyValueKv this _)).bind fun _ => ?_
    refine (keeping_raise (KeyValue.keeping_toNativeWatchOptions texts options)).bind fun _ => ?_
    exact keeping_collectNative texts .kvEntry _ supply

end Returning

end NatsCpp.Handles
