import NatsCpp.PairMoves

/-!
# Key-value stores and their contexts

A constructor of `key_value` makes a context and a store in it, or leaves
nothing behind. After that the two stay together until they are destroyed, so
that no program has a store whose context is gone.
-/
namespace NatsCpp.Handles
open Effect

/-! ## An object under construction -/

/-- The state in which a function has made an object, the last one, native objects and calls of
destroy functions. -/
def State.building (s : State) (types : List NativeType) (destroyed : List Handle)
    (o : Option Wrapper) : State :=
  { s with
    types := s.types ++ types
    destroyed := s.destroyed ++ destroyed
    objects := s.objects ++ [o] }

section Building

variable (s : State) {types : List NativeType} {destroyed : List Handle} {w : Wrapper}
  {o o' : Option Wrapper} {τ : NativeType} {m : Member τ} {p q : Pointer τ}

theorem allocate_building : (s.allocate w) = (s.objects.length, s.building [] [] (some w)) := by
  simp [State.building, State.allocate]

theorem objectAt_building : (s.building types destroyed o).objectAt s.objects.length = o := by
  simp [State.building, State.objectAt]

theorem setObject_building : (s.building types destroyed o).setObject s.objects.length o' =
    s.building types destroyed o' := by
  simp [State.building, State.setObject]

theorem store_building (hq : m.get w = some q) :
    (s.building types destroyed (some w)).store m s.objects.length p =
      s.building types destroyed (some (m.set p w)) := by
  rw [store_of_get (objectAt_building s) hq, setObject_building]

theorem destroy_building : (s.building types destroyed o).destroy p =
    s.building types (destroyed ++ p.handles) o := by
  simp [State.building, State.destroy]

theorem movesPairs_building (htypes : .kvStore ∉ types) (ho : ∀ w ∈ o, w.Pairless) :
    MovesPairs s (s.building types destroyed o) := by
  let t : State := { s with types := s.types ++ types }
  let u : State := { t with objects := t.objects ++ [o] }
  have hobjects : MovesPairs t u := movesPairs_append t fun w hw => ho w (List.mem_singleton.mp hw).symm
  have hdestroyed : MovesPairs u (s.building types destroyed o) :=
    .of_eq (List.prefix_append _ _) rfl rfl id rfl
  exact ((movesPairs_types s htypes).trans hobjects).trans hdestroyed

variable (texts : ErrorTexts Unit)

theorem outcome_makeMember_ok (context : String) (hq : m.get w = some q) :
    (makeMember texts m s.objects.length .ok context).outcome
        (s.building types destroyed (some w)) =
      (.ok (), s.building (types ++ [τ]) destroyed
        (some (m.set (.addr (s.types.length + types.length)) w))) := by
  have hcreate : (s.building types destroyed (some w)).create τ =
      (.addr (s.types.length + types.length), s.building (types ++ [τ]) destroyed (some w)) := by
    simp [State.building, State.create]
  rw [makeMember, outcome_bind, outcome_update, State.nativeInto, if_pos rfl, hcreate]
  show (check texts .ok context).outcome ((s.building (types ++ [τ]) destroyed (some w)).store m
    s.objects.length _) = _
  rw [store_building s hq, outcome_check_ok]

/-- A native constructor that fails and so has changed nothing. -/
theorem outcome_constructor_of_ne {f : State → State} {status : Status} (hne : status ≠ .ok)
    (context : String) {t : State} (ht : f t = t) :
    ∃ e, Effect.outcome (do update f; check texts status context) t = (.error e, t) := by
  refine ⟨nativeError texts status (some context) [], ?_⟩
  rw [outcome_bind, outcome_update, ht]
  exact outcome_check_of_ne texts context hne

theorem outcome_makeMember_of_ne {status : Status} (hne : status ≠ .ok) (x : ℕ) (context : String)
    (t : State) : ∃ e, (makeMember texts m x status context).outcome t = (.error e, t) :=
  outcome_constructor_of_ne texts hne context (if_neg hne)

theorem outcome_makeStore_of_ne {status : Status} (hne : status ≠ .ok) (x : ℕ) (context : String)
    (t : State) : ∃ e, (makeStore texts x status context).outcome t = (.error e, t) :=
  outcome_constructor_of_ne texts hne context (if_neg hne)

theorem outcome_constructor_ok {c : Class} {body : ℕ → Effect State Error Unit} {t : State}
    (hbody : (body s.objects.length).outcome (s.building [] [] (some c.empty)) = (.ok (), t)) :
    Effect.outcome (do
      let this ← act (·.allocate c.empty)
      (body this).unwinding (·.forget this)
      pure this) s = (.ok s.objects.length, t) := by
  rw [outcome_bind_of_ok _ _ _ (outcome_act _ _), allocate_building,
    outcome_bind_of_ok _ _ _ (outcome_unwinding_of_ok _ _ _ hbody), outcome_pure]

/-- A constructor that throws takes its object with it. -/
theorem outcome_constructor_error {c : Class} {body : ℕ → Effect State Error Unit} {e : Error}
    {types : List NativeType} {destroyed : List Handle} {o : Option Wrapper}
    (hbody : (body s.objects.length).outcome (s.building [] [] (some c.empty)) =
      (.error e, s.building types destroyed o)) :
    Effect.outcome (do
      let this ← act (·.allocate c.empty)
      (body this).unwinding (·.forget this)
      pure this) s = (.error e, s.building types destroyed none) := by
  rw [outcome_bind_of_ok _ _ _ (outcome_act _ _), allocate_building,
    outcome_bind_of_error _ _ _ (outcome_unwinding_of_error _ _ _ hbody)]
  exact congrArg (Prod.mk _) (setObject_building s)

/-- A context that could not be made is forgotten with its object. -/
theorem Jetstream.keeping_make (status : Status) :
    Keeping MovesPairs (Jetstream.make texts status) := by
  intro s
  by_cases hok : status = .ok
  · subst hok
    have hbody : (makeMember texts jetstreamCtx.toMember s.objects.length .ok
        "natsConnection_JetStream").outcome (s.building [] [] (some (.jetstream .null))) =
          (.ok (), s.building [.jsCtx] [] (some (.jetstream (.addr s.types.length)))) :=
      outcome_makeMember_ok s texts _ rfl
    rw [Jetstream.make, outcome_constructor_ok s (c := .jetstream) hbody]
    refine movesPairs_building s (by simp) fun w hw => ?_
    rw [Option.mem_some_iff] at hw
    exact hw ▸ jetstreamCtx_foreign.wrap _
  · obtain ⟨e, hbody⟩ := outcome_makeMember_of_ne (m := jetstreamCtx.toMember) texts hok
      s.objects.length "natsConnection_JetStream" (s.building [] [] (some (.jetstream .null)))
    rw [Jetstream.make, outcome_constructor_error s (c := .jetstream) hbody]
    exact movesPairs_building s (by simp) fun w hw => absurd hw (by simp)

namespace KeyValue

/-- The new pair that a successful construction leaves. -/
def opened : State :=
  { s.building [.jsCtx, .kvStore] []
      (some (.keyValue (.addr s.types.length) (.addr (s.types.length + 1)))) with
    parents := s.parents ++ [(.addr (s.types.length + 1), .addr s.types.length)] }

theorem objectAt_opened : (opened s).objectAt s.objects.length =
    some (.keyValue (.addr s.types.length) (.addr (s.types.length + 1))) := by
  simp [opened, State.building, State.objectAt]

theorem objectAt_opened_of_ne {x : ℕ} (hx : s.objects.length ≠ x) :
    (opened s).objectAt x = s.objectAt x :=
  objectAt_allocate_ne (s := s) hx

/-- The store has the address after that of its context. -/
theorem created_opened_iff {h : Handle} : (opened s).Created h ↔
    s.Created h ∨ h = ⟨.jsCtx, s.types.length⟩ ∨ h = ⟨.kvStore, s.types.length + 1⟩ := by
  obtain ⟨τ, n⟩ := h
  show (s.types ++ [.jsCtx, .kvStore])[n]? = some τ ↔ s.types[n]? = some τ ∨ _
  obtain hlt | rfl | rfl | hgt : n < s.types.length ∨ n = s.types.length ∨
      n = s.types.length + 1 ∨ s.types.length + 1 < n := by omega
  · have hctx : n ≠ s.types.length := by omega
    have hkv : n ≠ s.types.length + 1 := by omega
    simp [List.getElem?_append_left hlt, hctx, hkv]
  · simp [eq_comm]
  · simp [eq_comm]
  · have hnone : (s.types ++ [.jsCtx, .kvStore])[n]? = none := by
      simp
      omega
    have hctx : n ≠ s.types.length := by omega
    have hkv : n ≠ s.types.length + 1 := by omega
    simp [hnone, hctx, hkv, List.getElem?_eq_none (show s.types.length ≤ n by omega)]

theorem hasPair_opened_iff {a b : ℕ} : (opened s).HasPair a b ↔
    s.HasPair a b ∨ (a = s.types.length ∧ b = s.types.length + 1) := by
  constructor
  · rintro ⟨x, hx⟩
    by_cases hnew : s.objects.length = x
    · subst hnew
      obtain ⟨ha, hb⟩ := Wrapper.keyValue.inj (Option.some.inj ((objectAt_opened s).symm.trans hx))
      exact .inr ⟨(Pointer.addr.inj ha).symm, (Pointer.addr.inj hb).symm⟩
    · exact .inl ⟨x, (objectAt_opened_of_ne s hnew).symm.trans hx⟩
  · rintro (⟨x, hx⟩ | ⟨rfl, rfl⟩)
    · exact ⟨x, (objectAt_allocate_of_some hx :)⟩
    · exact ⟨_, objectAt_opened s⟩

theorem outcome_makeStore_ok (context : String) :
    (makeStore texts s.objects.length .ok context).outcome
        (s.building [.jsCtx] [] (some (.keyValue (.addr s.types.length) .null))) =
      (.ok (), opened s) := by
  let w : Wrapper := .keyValue (.addr s.types.length) .null
  have hcreate : (s.building [.jsCtx] [] (some w)).create .kvStore =
      (.addr (s.types.length + 1), s.building [.jsCtx, .kvStore] [] (some w)) := by
    simp [State.building, State.create]
  have hctx : (s.building [.jsCtx] [] (some w)).load keyValueCtx s.objects.length =
      .addr s.types.length := load_of_get (objectAt_building s) rfl
  have hstore : (s.building [.jsCtx, .kvStore] [] (some w)).store keyValueKv s.objects.length
      (.addr (s.types.length + 1)) = _ := store_building s rfl
  have hinto : State.storeInto s.objects.length .ok (s.building [.jsCtx] [] (some w)) = opened s := by
    simp only [State.storeInto, if_true, hcreate, hctx, hstore]
    rfl
  rw [makeStore, outcome_bind, outcome_update, hinto]
  exact outcome_check_ok ..

/-- What a construction leaves that has thrown: nothing of the object. -/
def Failed (r : Except Error ℕ × State) : Prop :=
  ∃ e types destroyed, .kvStore ∉ types ∧ r = (.error e, s.building types destroyed none)

theorem clearCtx_building {types : List NativeType} {destroyed : List Handle} {a : ℕ} :
    let t := s.building types destroyed (some (.keyValue (.addr a) .null))
    (t.destroy (t.load keyValueCtx s.objects.length)).store keyValueCtx s.objects.length .null =
      s.building types (destroyed ++ [⟨.jsCtx, a⟩]) (some (.keyValue .null .null)) := by
  intro t
  have hload : t.load keyValueCtx s.objects.length = .addr a :=
    load_of_get (objectAt_building s) rfl
  rw [hload, destroy_building]
  exact store_building s (m := keyValueCtx) rfl

theorem outcome_make (jetStream keyValue : Status) :
    let r := (make texts jetStream keyValue).outcome s
    Failed s r ∨ r = (.ok s.objects.length, opened s) := by
  intro r
  by_cases hjetStream : jetStream = .ok
  · subst hjetStream
    let t := s.building [.jsCtx] [] (some (.keyValue (.addr s.types.length) .null))
    have hctx : (makeMember texts keyValueCtx s.objects.length .ok
        "natsConnection_JetStream").outcome (s.building [] [] (some Class.keyValue.empty)) =
          (.ok (), t) := outcome_makeMember_ok s texts _ rfl
    by_cases hkeyValue : keyValue = .ok
    · subst hkeyValue
      have hkv : (makeStore texts s.objects.length .ok "js_KeyValue").outcome t =
          (.ok (), opened s) := outcome_makeStore_ok s texts _
      right
      refine outcome_constructor_ok s (c := .keyValue) ?_
      rw [openBucket, outcome_bind_of_ok _ _ _ hctx]
      exact outcome_unwinding_of_ok _ _ _ hkv
    · obtain ⟨e, hkv⟩ := outcome_makeStore_of_ne texts hkeyValue s.objects.length "js_KeyValue" t
      left
      refine ⟨e, [.jsCtx], [⟨.jsCtx, s.types.length⟩], by simp,
        outcome_constructor_error s (c := .keyValue) (o := some (.keyValue .null .null)) ?_⟩
      rw [openBucket, outcome_bind_of_ok _ _ _ hctx]
      refine (outcome_unwinding_of_error _ _ _ hkv).trans ?_
      exact congrArg (Prod.mk _) (clearCtx_building s)
  · obtain ⟨e, hctx⟩ := outcome_makeMember_of_ne (m := keyValueCtx) texts hjetStream
      s.objects.length "natsConnection_JetStream" (s.building [] [] (some Class.keyValue.empty))
    left
    refine ⟨e, [], [], by simp, outcome_constructor_error s (c := .keyValue)
      (o := some Class.keyValue.empty) ?_⟩
    rw [openBucket, outcome_bind_of_error _ _ _ hctx]

theorem destruct_building {types : List NativeType} {destroyed : List Handle} {ctx : Pointer .jsCtx}
    {kv : Pointer .kvStore} :
    destruct s.objects.length (s.building types destroyed (some (.keyValue ctx kv))) =
      s.building types (destroyed ++ kv.handles ++ ctx.handles) none := by
  rw [destruct, destroySelf_eq (objectAt_building s)]
  simp [State.building, State.forget, State.setObject]

/-- `destroy_self` has emptied `out` when its destructor runs. -/
theorem outcome_create_error {jetStream configInit createKeyValue : Status} {elided : Bool}
    {e : Error} {types : List NativeType} {destroyed : List Handle} {ctx : Pointer .jsCtx}
    {kv : Pointer .kvStore} (htypes : .kvStore ∉ types)
    (hbody : (createBucket texts jetStream configInit createKeyValue s.objects.length).outcome
      (s.building [] [] (some Class.keyValue.empty)) =
        (.error e, s.building types destroyed (some (.keyValue ctx kv)))) :
    Failed s ((create texts jetStream configInit createKeyValue elided).outcome s) := by
  refine ⟨e, types, destroyed ++ kv.handles ++ ctx.handles, htypes, ?_⟩
  rw [create, outcome_bind_of_ok _ _ _ (outcome_act _ _), allocate_building,
    outcome_bind_of_error _ _ _ (outcome_unwinding_of_error _ _ _ hbody)]
  exact congrArg (Prod.mk _) (destruct_building s)

/-- Whether `out` is the result or is moved into it. -/
theorem movesPairs_returnOut (elided : Bool) {t : State} {out : ℕ} {ctx : Pointer .jsCtx}
    {kv : Pointer .kvStore} (hout : t.objectAt out = some (.keyValue ctx kv)) :
    MovesPairs t ((returnOut elided out).outcome t).2 := by
  cases elided with
  | true => exact .rfl' t
  | false =>
    rw [returnOut, if_neg (by simp)]
    exact (movesPairs_moveConstruct hout).trans (movesPairs_destruct (objectAt_moveConstruct hout))

theorem outcome_create (jetStream configInit createKeyValue : Status) (elided : Bool) :
    let r := (create texts jetStream configInit createKeyValue elided).outcome s
    Failed s r ∨ MovesPairs (opened s) r.2 := by
  intro r
  by_cases hjetStream : jetStream = .ok
  · subst hjetStream
    let t := s.building [.jsCtx] [] (some (.keyValue (.addr s.types.length) .null))
    have hctx : (makeMember texts keyValueCtx s.objects.length .ok
        "natsConnection_JetStream").outcome (s.building [] [] (some Class.keyValue.empty)) =
          (.ok (), t) := outcome_makeMember_ok s texts _ rfl
    by_cases hconfig : configInit = .ok
    · subst hconfig
      have hcheck : (check texts .ok "kvConfig_Init").outcome t = (.ok (), t) := rfl
      by_cases hcreate : createKeyValue = .ok
      · subst hcreate
        have hkv : (makeStore texts s.objects.length .ok "js_CreateKeyValue").outcome t =
            (.ok (), opened s) := outcome_makeStore_ok s texts _
        have hbody : (createBucket texts .ok .ok .ok s.objects.length).outcome
            (s.building [] [] (some Class.keyValue.empty)) = (.ok (), opened s) := by
          rw [createBucket, outcome_bind_of_ok _ _ _ hctx, outcome_bind_of_ok _ _ _ hcheck]
          exact outcome_unwinding_of_ok _ _ _ hkv
        right
        show MovesPairs _ (Effect.outcome (create _ _ _ _ _) s).2
        rw [create, outcome_bind_of_ok _ _ _ (outcome_act _ _), allocate_building,
          outcome_bind_of_ok _ _ _ (outcome_unwinding_of_ok _ _ _ hbody)]
        exact movesPairs_returnOut elided (objectAt_opened s)
      · obtain ⟨e, hkv⟩ := outcome_makeStore_of_ne texts hcreate s.objects.length
          "js_CreateKeyValue" t
        left
        have hself : destroySelf s.objects.length t = s.building [.jsCtx]
            [⟨.jsCtx, s.types.length⟩] (some (.keyValue .null .null)) := by
          rw [destroySelf_eq (objectAt_building s)]
          simp [State.building, Pointer.handles]
        have hbody : (createBucket texts .ok .ok createKeyValue s.objects.length).outcome
            (s.building [] [] (some Class.keyValue.empty)) = (.error e, s.building [.jsCtx]
              [⟨.jsCtx, s.types.length⟩] (some (.keyValue .null .null))) := by
          rw [createBucket, outcome_bind_of_ok _ _ _ hctx, outcome_bind_of_ok _ _ _ hcheck, ← hself]
          exact outcome_unwinding_of_error _ _ _ hkv
        exact outcome_create_error s texts (by simp) hbody
    · have hcheck := outcome_check_of_ne (s := t) texts "kvConfig_Init" hconfig
      left
      have hbody : (createBucket texts .ok configInit createKeyValue s.objects.length).outcome
          (s.building [] [] (some Class.keyValue.empty)) =
            (.error (nativeError texts configInit (some "kvConfig_Init") []), t) := by
        rw [createBucket, outcome_bind_of_ok _ _ _ hctx, outcome_bind_of_error _ _ _ hcheck]
      exact outcome_create_error s texts (by simp) hbody
  · obtain ⟨e, hctx⟩ := outcome_makeMember_of_ne (m := keyValueCtx) texts hjetStream
      s.objects.length "natsConnection_JetStream" (s.building [] [] (some Class.keyValue.empty))
    left
    have hbody : (createBucket texts jetStream configInit createKeyValue s.objects.length).outcome
        (s.building [] [] (some Class.keyValue.empty)) =
          (.error e, s.building [] [] (some Class.keyValue.empty)) := by
      rw [createBucket, outcome_bind_of_error _ _ _ hctx]
    exact outcome_create_error s texts (by simp) hbody

end KeyValue

end Building

/-! ## The stores of a program -/

/-- An object has both handles or none. Each store that nats.c has made for the library has been
made once, in one context: it is in an object with this context, or the two have been destroyed
together. The two handles of an object are a store and the context that it was made in. -/
structure State.StoresInContext (s : State) : Prop where
  whole : ∀ {x ctx kv}, s.objectAt x = some (.keyValue ctx kv) →
    (ctx = .null ∧ kv = .null) ∨ ∃ a b, ctx = .addr a ∧ kv = .addr b
  stores : ∀ {b}, s.Created ⟨.kvStore, b⟩ → ⟨.kvStore, b⟩ ∉ s.user →
    ∃ a, (.addr b, .addr a) ∈ s.parents ∧ s.Created ⟨.jsCtx, a⟩ ∧
      (s.HasPair a b ∨ s.DestroyedPair a b)
  parents : ∀ {kv ctx}, (kv, ctx) ∈ s.parents → ∃ a b, kv = .addr b ∧ ctx = .addr a ∧
    s.Created ⟨.kvStore, b⟩ ∧ s.Created ⟨.jsCtx, a⟩ ∧ (s.HasPair a b ∨ s.DestroyedPair a b)
  once : (s.parents.map Prod.fst).Nodup
  paired : ∀ {a b}, s.HasPair a b → (.addr b, .addr a) ∈ s.parents

namespace State.StoresInContext

variable {s t : State}

theorem moves (h : s.StoresInContext) (hm : MovesPairs s t) : t.StoresInContext := by
  have hkept {a b : ℕ} (hp : s.HasPair a b ∨ s.DestroyedPair a b) :
      t.HasPair a b ∨ t.DestroyedPair a b := by
    obtain hpair | hgone := hp
    · exact hm.kept hpair
    · exact .inr (hgone.trans hm.destroyed.isInfix)
  constructor
  · intro x ctx kv hx
    obtain hnull | ⟨y, hy⟩ := hm.objects hx
    · exact .inl hnull
    · exact h.whole hy
  · intro b hc hu
    obtain ⟨hc, hu⟩ := hm.stores hc hu
    obtain ⟨a, hmem, ha, hpair⟩ := h.stores hc hu
    exact ⟨a, hm.parents ▸ hmem, hm.created ha, hkept hpair⟩
  · intro kv ctx hmem
    obtain ⟨a, b, rfl, rfl, hb, ha, hpair⟩ := h.parents (hm.parents ▸ hmem)
    exact ⟨a, b, rfl, rfl, hm.created hb, hm.created ha, hkept hpair⟩
  · rw [hm.parents]
    exact h.once
  · rintro a b ⟨x, hx⟩
    rw [hm.parents]
    obtain ⟨hnull, -⟩ | ⟨y, hy⟩ := hm.objects hx
    · exact absurd hnull (by simp)
    · exact h.paired ⟨y, hy⟩

/-- A pair of a state stays where it is when a new one is made. -/
theorem kept_opened {a b : ℕ} (h : s.HasPair a b ∨ s.DestroyedPair a b) :
    (KeyValue.opened s).HasPair a b ∨ (KeyValue.opened s).DestroyedPair a b := by
  obtain hpair | hgone := h
  · exact .inl ((KeyValue.hasPair_opened_iff s).mpr (.inl hpair))
  · have hdestroyed : (KeyValue.opened s).destroyed = s.destroyed := List.append_nil _
    right
    rwa [DestroyedPair, hdestroyed]

/-- The stores recorded so far have smaller addresses than a new one. -/
theorem address_lt (h : s.StoresInContext) {b : ℕ} (hb : .addr b ∈ s.parents.map Prod.fst) :
    b < s.types.length := by
  obtain ⟨⟨kv, ctx⟩, hmem, rfl⟩ := List.mem_map.mp hb
  obtain ⟨a, b', heq, rfl, hcreated, -⟩ := h.parents hmem
  obtain rfl := Pointer.addr.inj heq
  exact (List.getElem?_eq_some_iff.mp hcreated).1

theorem opened (h : s.StoresInContext) : (KeyValue.opened s).StoresInContext := by
  have hcreated {h : Handle} (hc : s.Created h) : (KeyValue.opened s).Created h :=
    (KeyValue.created_opened_iff s).mpr (.inl hc)
  have hctx : (KeyValue.opened s).Created ⟨.jsCtx, s.types.length⟩ :=
    (KeyValue.created_opened_iff s).mpr (.inr (.inl rfl))
  have hkv : (KeyValue.opened s).Created ⟨.kvStore, s.types.length + 1⟩ :=
    (KeyValue.created_opened_iff s).mpr (.inr (.inr rfl))
  have hpair : (KeyValue.opened s).HasPair s.types.length (s.types.length + 1) :=
    (KeyValue.hasPair_opened_iff s).mpr (.inr ⟨rfl, rfl⟩)
  have hparents : (KeyValue.opened s).parents =
      s.parents ++ [(.addr (s.types.length + 1), .addr s.types.length)] := rfl
  constructor
  · intro x ctx kv hx
    by_cases hnew : s.objects.length = x
    · subst hnew
      obtain ⟨rfl, rfl⟩ := Wrapper.keyValue.inj
        (Option.some.inj ((KeyValue.objectAt_opened s).symm.trans hx))
      exact .inr ⟨_, _, rfl, rfl⟩
    · exact h.whole ((KeyValue.objectAt_opened_of_ne s hnew).symm.trans hx)
  · intro b hc hu
    rw [hparents]
    obtain hold | hnew | hnew := (KeyValue.created_opened_iff s).mp hc
    · obtain ⟨a, hmem, ha, hpair⟩ := h.stores hold hu
      exact ⟨a, List.mem_append_left _ hmem, hcreated ha, kept_opened hpair⟩
    · exact absurd hnew (by simp)
    · obtain rfl := (Handle.mk.inj hnew).2
      exact ⟨s.types.length, by simp, hctx, .inl hpair⟩
  · intro kv ctx hmem
    rw [hparents, List.mem_append, List.mem_singleton, Prod.mk.injEq] at hmem
    obtain hmem | ⟨rfl, rfl⟩ := hmem
    · obtain ⟨a, b, rfl, rfl, hb, ha, hpair⟩ := h.parents hmem
      exact ⟨a, b, rfl, rfl, hcreated hb, hcreated ha, kept_opened hpair⟩
    · exact ⟨_, _, rfl, rfl, hkv, hctx, .inl hpair⟩
  · have hfresh : Pointer.addr (s.types.length + 1) ∉ s.parents.map Prod.fst := by
      intro hmem
      have hlt := h.address_lt hmem
      omega
    rw [hparents, List.map_append, List.map_singleton]
    exact h.once.append (List.nodup_singleton _) (List.disjoint_singleton.mpr hfresh)
  · intro a b hab
    rw [hparents]
    obtain hab | ⟨rfl, rfl⟩ := (KeyValue.hasPair_opened_iff s).mp hab
    · exact List.mem_append_left _ (h.paired hab)
    · simp

theorem failed (h : s.StoresInContext) {r : Except Error ℕ × State} (hr : KeyValue.Failed s r) :
    r.2.StoresInContext := by
  obtain ⟨e, types, destroyed, htypes, rfl⟩ := hr
  exact h.moves (movesPairs_building s htypes fun w hw => absurd hw (by simp))

variable (texts : ErrorTexts Unit)

theorem construct {e : Construction} {r : Except Error ℕ × State} (h : s.StoresInContext)
    (he : construct texts s e = some r) : r.2.StoresInContext := by
  cases e with
  | empty c =>
    obtain rfl := Option.some.inj he
    refine h.moves (movesPairs_allocate s fun ctx kv hc => ?_)
    cases c with
    | keyValue =>
      obtain ⟨rfl, rfl⟩ := Wrapper.keyValue.inj hc
      exact ⟨rfl, rfl⟩
    | _ => exact absurd hc (by simp [Class.empty])
  | adopt c raw =>
    obtain ⟨u, hu, rfl⟩ := Option.map_eq_some_iff.mp he
    exact h.moves ((movesPairs_take c.foreign.type hu).trans
      (movesPairs_allocate u (c.foreign.wrap raw)))
  | move other =>
    obtain ⟨w, hw, rfl⟩ := Option.map_eq_some_iff.mp he
    exact h.moves (movesPairs_classMoveConstruct hw)
  | request msg status =>
    simp only [Handles.construct, Option.ite_none_right_eq_some, Option.some.injEq] at he
    obtain ⟨-, rfl⟩ := he
    exact h.moves (keeping_callByValue (Connection.keeping_request texts status) msg s)
  | jetstream status =>
    obtain rfl := Option.some.inj he
    exact h.moves (Jetstream.keeping_make texts status s)
  | keyValue jetStream keyValue =>
    obtain rfl := Option.some.inj he
    obtain hfailed | hok := KeyValue.outcome_make s texts jetStream keyValue
    · exact h.failed hfailed
    · rw [hok]
      exact h.opened
  | createBucket jetStream configInit createKeyValue elided =>
    obtain rfl := Option.some.inj he
    obtain hfailed | hmoves := KeyValue.outcome_create s texts jetStream configInit createKeyValue
      elided
    · exact h.failed hfailed
    · exact h.opened.moves hmoves

theorem enrolled (storage : Storage) {r : Except Error ℕ × State} (h : r.2.StoresInContext) :
    (enrolled storage r).StoresInContext := by
  obtain ⟨r, t⟩ := r
  cases r with
  | error e => exact h
  | ok x => cases storage <;> exact h.moves (.of_eq (List.prefix_refl _) rfl rfl id rfl)

theorem step {a : Action} (h : s.StoresInContext) (ht : step texts s a = some t) :
    t.StoresInContext := by
  cases a with
  | make τ =>
    obtain rfl := Option.some.inj ht
    exact h.moves (movesPairs_make s τ)
  | openBlock =>
    obtain rfl := Option.some.inj ht
    exact h.moves (.of_eq (List.prefix_refl _) rfl rfl id rfl)
  | closeBlock b =>
    obtain ⟨locals, -, rfl⟩ := Option.map_eq_some_iff.mp ht
    exact h.moves ((movesPairs_destructAll s locals).trans (.of_eq (List.prefix_refl _) rfl rfl id rfl))
  | construct e storage =>
    simp only [Handles.step, Option.ite_none_right_eq_some] at ht
    obtain ⟨r, hr, rfl⟩ := Option.map_eq_some_iff.mp ht.2
    exact (h.construct texts hr).enrolled storage
  | moveAssign x other =>
    simp only [Handles.step] at ht
    split at ht
    · rename_i w w' hw hw'
      simp only [Option.ite_none_right_eq_some, Option.some.injEq] at ht
      obtain ⟨hcls, rfl⟩ := ht
      exact h.moves (movesPairs_classMoveAssign hw hw' hcls)
    · exact absurd ht (by simp)
  | release x =>
    simp only [Handles.step] at ht
    split at ht
    · obtain rfl := Option.some.inj ht
      exact h.moves ((movesPairs_store (RawClass.foreign .message) s x .null).trans
        (movesPairs_give _ _))
    · obtain rfl := Option.some.inj ht
      exact h.moves ((movesPairs_store (RawClass.foreign .header) s x .null).trans
        (movesPairs_give _ _))
    · exact absurd ht (by simp)
  | reset x raw =>
    simp only [Handles.step, Option.ite_none_right_eq_some] at ht
    obtain ⟨u, hu, rfl⟩ := Option.map_eq_some_iff.mp ht.2
    exact h.moves ((movesPairs_take (by simp) hu).trans
      (movesPairs_reset (RawClass.foreign .header) u x raw))
  | destroy x =>
    simp only [Handles.step, Option.ite_none_right_eq_some, Option.some.injEq] at ht
    obtain ⟨-, rfl⟩ := ht
    exact h.moves (movesPairs_reset (RawClass.foreign .header) s x .null)
  | destruct x =>
    simp only [Handles.step, Option.ite_none_left_eq_some] at ht
    obtain ⟨w, hw, rfl⟩ := Option.map_eq_some_iff.mp ht.2
    exact h.moves (movesPairs_classDestruct hw)
  | publish msg status =>
    simp only [Handles.step, Option.ite_none_right_eq_some, Option.some.injEq] at ht
    obtain ⟨-, rfl⟩ := ht
    exact h.moves (keeping_callByValue (Connection.keeping_publish texts status) msg s)
  | publishMsg js msg status =>
    simp only [Handles.step, Option.ite_none_right_eq_some, Option.some.injEq] at ht
    obtain ⟨-, rfl⟩ := ht
    exact h.moves (keeping_callByValue (Jetstream.keeping_publishMsg texts js status) msg s)
  | deleteBucket jetStream deleteKeyValue =>
    obtain rfl := Option.some.inj ht
    exact h.moves (KeyValue.keeping_deleteBucket texts jetStream deleteKeyValue s)
  | deliver present =>
    cases present with
    | true =>
      obtain rfl := Option.some.inj ht
      refine h.moves ((movesPairs_create s (τ := .natsMsg) (by simp)).trans ?_)
      exact (movesPairs_allocate _ ((RawClass.foreign .message).wrap _)).trans
        (.of_eq (List.prefix_refl _) rfl rfl id rfl)
    | false =>
      obtain rfl := Option.some.inj ht
      exact h

theorem apiStep {a : ApiAction} (h : s.StoresInContext) (ht : apiStep texts s a = some t) :
    t.StoresInContext := by
  cases a with
  | core a => exact h.step texts ht
  | call c reply storage =>
    simp only [Handles.apiStep, Option.ite_none_right_eq_some, Option.some.injEq] at ht
    rw [← ht.2]
    exact (h.moves (c.keeping_run texts reply s)).enrolled storage
  | batch c supply storage =>
    simp only [Handles.apiStep, Option.ite_none_right_eq_some, Option.some.injEq] at ht
    rw [← ht.2]
    have hrun := h.moves (c.keeping_run texts supply s)
    generalize (c.run texts supply).outcome s = o at hrun
    obtain ⟨r, u⟩ := o
    cases r with
    | error e => exact hrun
    | ok out =>
      obtain ⟨blocks, hblocks⟩ := objects_enrollAll u storage out
      rw [enrolledAll, hblocks]
      exact hrun.moves (.of_eq (List.prefix_refl _) rfl rfl id rfl)

end State.StoresInContext

/-- In every program a store and the context that it was made in are alive in one object, or both
are gone: the store was destroyed first and its context right after it. -/
theorem stores_within_contexts (texts : ErrorTexts Unit) (program : List ApiAction) :
    (apiMachine texts).Throughout (fun s => s.StoresInContext ∧ ∀ a b, s.HasPair a b →
      ⟨.kvStore, b⟩ ∉ s.destroyed ∧ ⟨.jsCtx, a⟩ ∉ s.destroyed) (apiMachine texts).init program := by
  have hinv : (apiMachine texts).Invariant Machine.Free
      (fun s => s.Settled [] ∧ s.StoresInContext) := by
    refine (api_invariant texts).and (fun _ _ _ => trivial) ?_ fun _ hs _ ht => hs.apiStep texts ht
    constructor <;> simp [State.objectAt, State.Created, State.HasPair, apiMachine]
  refine (hinv.throughout hinv.init program).mono fun s hs => ⟨hs.2, fun a b hpair => ?_⟩
  obtain ⟨x, hx⟩ := hpair
  have hkv : s.Owns x ⟨.kvStore, b⟩ := ⟨_, hx, by simp [Wrapper.handles, Pointer.handles]⟩
  have hctx : s.Owns x ⟨.jsCtx, a⟩ := ⟨_, hx, by simp [Wrapper.handles, Pointer.handles]⟩
  exact ⟨(hs.1.sound.live hkv).2.1, (hs.1.sound.live hctx).2.1⟩

end NatsCpp.Handles
