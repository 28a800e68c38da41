import NatsCpp.OwningCalls
import Mathlib.Data.List.Nodup

/-!
# Lists of native handles

`fetch`, `fetch_request` and `history` get a list from nats.c and move its
entries one by one into wrapper objects, under a guard that destroys the list
when the function is left. `js_pull_consumer::next` takes the first entry of
such a list. nats.c makes lists of any length, in which any entry may be null;
the destroy function of a list destroys the entries that are not null.
-/
namespace NatsCpp.Handles
open Effect

variable {τ : NativeType}

/-- A `natsMsgList` or a `kvEntryList`. Its array may be null; `Count` is its length. -/
structure NativeList (τ : NativeType) where
  array : Option (List (Pointer τ)) := none

namespace NativeList

variable (l : NativeList τ)

def entries : List (Pointer τ) := l.array.getD []

def count : ℕ := l.entries.length

/-- `list.Msgs[i]`. -/
def get (i : ℕ) : Pointer τ := l.entries.getD i .null

/-- `list.Msgs[i] = nullptr`. -/
def setNull (i : ℕ) : NativeList τ := ⟨l.array.map (·.set i .null)⟩

/-- The native objects in the list. -/
def handles : List Handle := l.entries.flatMap Pointer.handles

theorem entries_setNull (i : ℕ) : (l.setNull i).entries = l.entries.set i .null := by
  obtain ⟨_ | entries⟩ := l <;> rfl

/-- The first entry and the others. -/
theorem handles_of_pos (h : 0 < l.count) : l.handles = (l.get 0).handles ++ (l.setNull 0).handles := by
  obtain ⟨p, rest, hentries⟩ := List.exists_cons_of_length_pos h
  simp [handles, get, entries_setNull, hentries]

end NativeList

namespace State

/-- nats.c creates an entry wherever the list is not to have a null. -/
def createEntries (τ : NativeType) : List Bool → State → List (Pointer τ) × State
  | [], s => ([], s)
  | true :: shape, s =>
    let (p, s) := s.create τ
    let (entries, s) := createEntries τ shape s
    (p :: entries, s)
  | false :: shape, s =>
    let (entries, s) := createEntries τ shape s
    (.null :: entries, s)

/-- A native function that fills a list, which the caller has set to zero. -/
def nativeList (τ : NativeType) (status : Status) (shape : Option (List Bool)) (s : State) :
    NativeList τ × State :=
  if status = .ok then
    match shape with
    | none => ({}, s)
    | some shape =>
      let (entries, s) := createEntries τ shape s
      (⟨some entries⟩, s)
  else
    ({}, s)

/-- `natsMsgList_Destroy`, `kvEntryList_Destroy`. -/
def destroyList (s : State) (l : NativeList τ) : State := l.entries.foldl (fun s p => s.destroy p) s

end State

/-- What leaves a function that collects a list. -/
inductive Failure where
  | error (e : Error)
  | badAlloc

/-- A call of a function that throws no `std::bad_alloc`. -/
def raise {α : Type} (p : Effect State Error α) : Effect State Failure α :=
  ExceptT.adapt .error p

/-- The local variables while a list is taken apart; a wrapper in `out` is given by its address. -/
structure Scope (τ : NativeType) where
  state : State
  list : NativeList τ
  out : List ℕ := []

/-- Runs a function body with a list in its scope, and the `list_guard` at its end. -/
def withGuard {ε α : Type} (list : NativeList τ) (body : Effect (Scope τ) ε α) :
    Effect State ε α :=
  (body.guarded fun f => { f with state := f.state.destroyList f.list }).within
    (fun s => { state := s, list := list }) fun f _ => f.state

/-- `out.emplace_back(list.Msgs[i]); list.Msgs[i] = nullptr;` -/
def transfer (c : Owner τ) (f : Scope τ) (i : ℕ) : Scope τ :=
  let (x, state) := f.state.allocate (c.wrap (f.list.get i))
  ⟨state, f.list.setNull i, f.out ++ [x]⟩

/-- The loop over the entries. -/
def transferAll (c : Owner τ) (f : Scope τ) : Scope τ :=
  (List.range f.list.count).foldl (transfer c) f

/-- The vector of wrappers; only its `reserve` can throw, while it is still empty. -/
def collect (c : Owner τ) (reserve : Bool) : Effect (Scope τ) Failure (List ℕ) := do
  if reserve then
    update (transferAll c)
    act fun f => (f.out, f)
  else
    throw .badAlloc

/-- What nats.c returns, with the entries that are not null, and whether there is memory for the
vector. -/
structure Supply where
  status : Status
  shape : Option (List Bool)
  reserve : Bool

section Calls

variable (texts : ErrorTexts Unit)

/-- The part that the functions share, from the native call on. -/
def collectNative (c : Owner τ) (context : String) (supply : Supply) :
    Effect State Failure (List ℕ) := do
  let list ← act (State.nativeList τ supply.status supply.shape)
  raise (check texts supply.status context)
  withGuard list (collect c supply.reserve)

namespace Subscription

/-- `check_valid()` of a subscription that has a native one or not. -/
def checkValid (initialized : Bool) : Effect State Error Unit :=
  if initialized then pure () else throw (.natsError .invalidArg "subscription: not initialized")

def fetch (initialized : Bool) (supply : Supply) : Effect State Failure (List ℕ) := do
  raise (checkValid initialized)
  collectNative texts messageMsg "natsSubscription_Fetch" supply

def fetchRequest (initialized : Bool) (supply : Supply) : Effect State Failure (List ℕ) := do
  raise (checkValid initialized)
  collectNative texts messageMsg "natsSubscription_FetchRequest" supply

end Subscription

namespace KeyValue

def checkValid (this : ℕ) : Effect State Error Unit := do
  let kv ← act fun s => (s.load keyValueKv this, s)
  if kv = .null then throw (.natsError .invalidArg "key_value: not initialized") else pure ()

/-- `to_native_watch_options`, with the status of `kvWatchOptions_Init` if there are options. -/
def toNativeWatchOptions : Option Status → Effect State Error Unit
  | none => pure ()
  | some status => check texts status "kvWatchOptions_Init"

def history (this : ℕ) (options : Option Status) (supply : Supply) :
    Effect State Failure (List ℕ) := do
  raise (checkValid this)
  raise (toNativeWatchOptions texts options)
  collectNative texts kvEntryEntry "kvStore_History" supply

end KeyValue

namespace JsPullConsumer

/-- The body of `next` once it has its list; `natsTimeout` is `NATS_TIMEOUT`. -/
def takeFirst (natsTimeout : Status) : Effect (Scope .natsMsg) Error ℕ := do
  let list ← act fun f => (f.list, f)
  if list.count < 1 ∨ list.array = none then
    throw (.natsError natsTimeout "natsSubscription_Fetch returned no messages")
  else
    update fun f => { f with list := f.list.setNull 0 }
    act fun f =>
      let (x, state) := f.state.allocate (.message (list.get 0))
      (x, { f with state := state })

def next (natsTimeout : Status) (this : ℕ) (status : Status) (shape : Option (List Bool)) :
    Effect State Error ℕ := do
  let sub ← act fun s => (s.load jsPullConsumerSub.toMember this, s)
  if sub = .null then
    throw (.natsError .invalidArg "js_pull_consumer: not initialized")
  else
    let list ← act (State.nativeList .natsMsg status shape)
    check texts status "natsSubscription_Fetch"
    withGuard list (takeFirst natsTimeout)

end JsPullConsumer

end Calls

/-! ## The list that nats.c makes -/

namespace State

/-- Entries are fresh: their numbers start where the objects before them end. -/
theorem address_of_mem_createEntries (shape : List Bool) (s : State) {h : Handle}
    (hh : h ∈ (createEntries τ shape s).1.flatMap Pointer.handles) : s.types.length ≤ h.address := by
  induction shape generalizing s with
  | nil => simp [createEntries] at hh
  | cons entry shape ih =>
    cases entry with
    | false =>
      simp only [createEntries, List.flatMap_cons, Pointer.handles_null, List.nil_append] at hh
      exact ih s hh
    | true =>
      simp only [createEntries, List.flatMap_cons, List.mem_append] at hh
      rcases hh with hfirst | hrest
      · simp only [create, Pointer.handles, List.mem_singleton] at hfirst
        subst hfirst
        exact Nat.le_refl _
      · have hle := ih (s.create τ).2 hrest
        simp only [create, List.length_append, List.length_singleton] at hle
        omega

theorem nodup_createEntries (shape : List Bool) (s : State) :
    ((createEntries τ shape s).1.flatMap Pointer.handles).Nodup := by
  induction shape generalizing s with
  | nil => simp [createEntries]
  | cons entry shape ih =>
    cases entry with
    | false =>
      simp only [createEntries, List.flatMap_cons, Pointer.handles_null, List.nil_append]
      exact ih s
    | true =>
      have hnew : (s.create τ).1.handles = [⟨τ, s.types.length⟩] := rfl
      simp only [createEntries, List.flatMap_cons, hnew, List.singleton_append, List.nodup_cons]
      refine ⟨fun hmem => ?_, ih (s.create τ).2⟩
      have hle := address_of_mem_createEntries shape (s.create τ).2 hmem
      simp only [create, List.length_append, List.length_singleton] at hle
      omega

/-- nats.c touches neither the objects nor the log. -/
theorem createEntries_frame (shape : List Bool) (s : State) :
    ∃ types, (createEntries τ shape s).2 = { s with types := types } := by
  induction shape generalizing s with
  | nil => exact ⟨s.types, rfl⟩
  | cons entry shape ih =>
    cases entry with
    | false => exact ih s
    | true =>
      obtain ⟨types, htypes⟩ := ih (s.create τ).2
      exact ⟨types, htypes⟩

theorem settled_createEntries {l : List Handle} (shape : List Bool) {s : State}
    (hs : s.Settled l) :
    (createEntries τ shape s).2.Settled
      ((createEntries τ shape s).1.flatMap Pointer.handles ++ l) := by
  induction shape generalizing s l with
  | nil => exact hs
  | cons entry shape ih =>
    cases entry with
    | false => exact ih hs
    | true =>
      have hrest := ih (hs.create (τ := τ))
      simp only [createEntries, List.flatMap_cons, List.append_assoc]
      exact hrest.swap

theorem destroyList_eq (s : State) (l : NativeList τ) :
    s.destroyList l = { s with destroyed := s.destroyed ++ l.handles } := by
  unfold destroyList NativeList.handles
  induction l.entries generalizing s with
  | nil => simp
  | cons p entries ih =>
    rw [List.foldl_cons, ih, List.flatMap_cons]
    simp only [destroy, List.append_assoc]

end State

/-! ## The loop -/

section Loop

variable {c : Owner τ} {f g : Scope τ} {k : ℕ}

/-- What holds before the entry `k` is moved: the entries before it are wrapped, in order, and
null in the list, those from it on are still in the list. -/
structure Transferred (c : Owner τ) (f : Scope τ) (k : ℕ) (g : Scope τ) : Prop where
  state : g.state = { f.state with
    objects := f.state.objects ++ (f.list.entries.take k).map fun p => some (c.wrap p) }
  entries : g.list.entries = List.replicate k .null ++ f.list.entries.drop k
  out : g.out = f.out ++ List.range' f.state.objects.length k

theorem Transferred.zero : Transferred c f 0 f where
  state := by simp
  entries := by simp
  out := by simp

theorem Transferred.step (h : Transferred c f k g) (hk : k < f.list.count) :
    Transferred c f (k + 1) (transfer c g k) := by
  have hlt : k < f.list.entries.length := hk
  have hget : g.list.get k = f.list.entries[k] := by
    rw [NativeList.get, h.entries, List.getD_eq_getElem?_getD, List.getElem?_append_right (by simp),
      List.length_replicate, Nat.sub_self, List.getElem?_drop, Nat.add_zero,
      List.getElem?_eq_getElem hlt, Option.getD_some]
  have hlength : g.state.objects.length = f.state.objects.length + k := by
    rw [h.state]
    simp only [List.length_append, List.length_map, List.length_take]
    omega
  constructor
  · show (g.state.allocate (c.wrap (g.list.get k))).2 = _
    rw [hget, h.state, List.take_add_one, List.getElem?_eq_getElem hlt]
    simp only [State.allocate, List.map_append, Option.toList_some, List.map_cons, List.map_nil,
      List.append_assoc]
  · show (g.list.setNull k).entries = _
    rw [NativeList.entries_setNull, h.entries, List.drop_eq_getElem_cons hlt,
      List.set_append, List.length_replicate, if_neg (Nat.lt_irrefl k), Nat.sub_self,
      List.set_cons_zero, List.replicate_succ', List.append_assoc, List.singleton_append]
  · show g.out ++ [g.state.objects.length] = _
    rw [h.out, hlength, List.range'_concat, List.append_assoc, Nat.one_mul]

theorem transferred_foldl (hk : k ≤ f.list.count) :
    Transferred c f k ((List.range k).foldl (transfer c) f) := by
  induction k with
  | zero => exact .zero
  | succ k ih =>
    rw [List.range_succ, List.foldl_append]
    exact (ih (Nat.le_of_succ_le hk)).step hk

/-- The loop has moved every entry, and leaves only nulls to the guard. -/
theorem transferAll_eq (c : Owner τ) (f : Scope τ) :
    (transferAll c f).state = { f.state with
      objects := f.state.objects ++ f.list.entries.map fun p => some (c.wrap p) } ∧
    (transferAll c f).list.handles = [] ∧
    (transferAll c f).out = f.out ++ List.range' f.state.objects.length f.list.count := by
  have hall : Transferred c f f.list.count (transferAll c f) := transferred_foldl (Nat.le_refl _)
  refine ⟨?_, ?_, hall.out⟩
  · rw [hall.state, NativeList.count, List.take_length]
  · rw [NativeList.handles, hall.entries, NativeList.count, List.drop_length, List.append_nil]
    simp

end Loop

section Outcomes

variable (c : Owner τ) (list : NativeList τ) (s : State)

theorem outcome_collect : (withGuard list (collect c true)).outcome s =
    (.ok (List.range' s.objects.length list.count), { s with
      objects := s.objects ++ list.entries.map fun p => some (c.wrap p) }) := by
  obtain ⟨hstate, hhandles, hout⟩ := transferAll_eq c ⟨s, list, []⟩
  show (Except.ok (transferAll c ⟨s, list, []⟩).out,
    (transferAll c ⟨s, list, []⟩).state.destroyList (transferAll c ⟨s, list, []⟩).list) = _
  rw [State.destroyList_eq, hhandles, hout, hstate, List.append_nil, List.nil_append]

theorem outcome_collect_badAlloc : (withGuard list (collect c false)).outcome s =
    (.error .badAlloc, { s with destroyed := s.destroyed ++ list.handles }) := by
  show (Except.error Failure.badAlloc, s.destroyList list) = _
  rw [State.destroyList_eq]

theorem outcome_raise {α : Type} (p : Effect State Error α) :
    (raise p).outcome s = ((p.outcome s).1.mapError .error, (p.outcome s).2) :=
  rfl

end Outcomes

/-! ## Where the entries go -/

/-- One of the returned wrappers owns the handle, only one, and it has not been destroyed. -/
def State.HandsOut (s t : State) (out : List ℕ) (h : Handle) : Prop :=
  (∃! x, x ∈ out ∧ t.Owns x h) ∧ t.destroyed.count h = s.destroyed.count h

/-- The handle has been destroyed once, and no wrapper has got it. -/
def State.Drops (s t : State) (h : Handle) : Prop :=
  (∀ x, t.Owns x h → s.Owns x h) ∧ t.destroyed.count h = s.destroyed.count h + 1

/-- The vector has a wrapper for each entry of the list, in order, which owns just this entry. -/
structure Collected (c : Owner τ) (list : NativeList τ) (s t : State) (out : List ℕ) : Prop where
  length : out.length = list.count
  nodup : out.Nodup
  wraps : ∀ (i : ℕ) (p : Pointer τ), list.entries[i]? = some p →
    ∃ x, out[i]? = some x ∧ t.objectAt x = some (c.wrap p)
  handsOut : ∀ h ∈ list.handles, s.HandsOut t out h

section Places

variable {c : Owner τ} {list : NativeList τ} {s t : State} {h : Handle} {i j : ℕ}
  {p q : Pointer τ}

/-- A handle is in one entry only. -/
theorem NativeList.index_unique (hnodup : list.handles.Nodup) (hi : list.entries[i]? = some p)
    (hj : list.entries[j]? = some q) (hp : h ∈ p.handles) (hq : h ∈ q.handles) : i = j := by
  have hpairwise := List.pairwise_iff_getElem.mp (List.nodup_flatMap.mp hnodup).2
  obtain ⟨hilt, hi⟩ := List.getElem?_eq_some_iff.mp hi
  obtain ⟨hjlt, hj⟩ := List.getElem?_eq_some_iff.mp hj
  rcases Nat.lt_trichotomy i j with hlt | heq | hgt
  · have hdisjoint := hpairwise i j hilt hjlt hlt
    rw [hi, hj] at hdisjoint
    exact absurd hq (hdisjoint hp)
  · exact heq
  · have hdisjoint := hpairwise j i hjlt hilt hgt
    rw [hi, hj] at hdisjoint
    exact absurd hp (hdisjoint hq)

/-- The vector that the loop fills is what the caller gets. -/
theorem collected_of_objects (hnodup : list.handles.Nodup)
    (hobjects : t.objects = s.objects ++ list.entries.map fun p => some (c.wrap p))
    (hdestroyed : t.destroyed = s.destroyed) :
    Collected c list s t (List.range' s.objects.length list.count) := by
  have hwraps {i : ℕ} {p : Pointer τ} (hi : list.entries[i]? = some p) :
      t.objectAt (s.objects.length + i) = some (c.wrap p) := by
    rw [State.objectAt, hobjects, List.getElem?_append_right (Nat.le_add_right _ i),
      Nat.add_sub_cancel_left, List.getElem?_map, hi]
    rfl
  constructor
  · exact List.length_range'
  · exact List.nodup_range'
  · intro i p hi
    have hlt : i < list.count := (List.getElem?_eq_some_iff.mp hi).1
    refine ⟨s.objects.length + i, ?_, hwraps hi⟩
    simp [hlt]
  · intro h hh
    obtain ⟨p, hp, hhp⟩ := List.mem_flatMap.mp hh
    obtain ⟨i, hi⟩ := List.getElem?_of_mem hp
    have hlt : i < list.count := (List.getElem?_eq_some_iff.mp hi).1
    refine ⟨⟨s.objects.length + i, ⟨?_, c.wrap p, hwraps hi, ?_⟩, ?_⟩, by rw [hdestroyed]⟩
    · rw [List.mem_range'_1]
      omega
    · rwa [c.handles_wrap]
    · intro x hx
      obtain ⟨hmem, w, hw, hhw⟩ := hx
      rw [List.mem_range'_1] at hmem
      obtain ⟨j, rfl⟩ := Nat.exists_eq_add_of_le hmem.1
      have hjlt : j < list.entries.length := Nat.lt_of_add_lt_add_left hmem.2
      have hj : list.entries[j]? = some list.entries[j] := List.getElem?_eq_getElem hjlt
      obtain rfl := Option.some.inj ((hwraps hj).symm.trans hw)
      rw [c.handles_wrap] at hhw
      rw [NativeList.index_unique hnodup hj hi hhw hhp]

/-- What the guard finds in a list is destroyed once. -/
theorem drops_of_destroyed {dropped : List Handle} (hnodup : dropped.Nodup)
    (howns : ∀ x, t.Owns x h → s.Owns x h) (hdestroyed : t.destroyed = s.destroyed ++ dropped)
    (hh : h ∈ dropped) : s.Drops t h := by
  refine ⟨howns, ?_⟩
  rw [hdestroyed, List.count_append, List.count_eq_one_of_mem hnodup hh]

end Places

section Lists

variable (status : Status) (shape : Option (List Bool)) (s : State)

theorem nodup_nativeList : (State.nativeList τ status shape s).1.handles.Nodup := by
  unfold State.nativeList
  split
  · cases shape with
    | none => exact List.nodup_nil
    | some shape => exact State.nodup_createEntries shape s
  · exact List.nodup_nil

theorem nativeList_frame : ∃ types, (State.nativeList τ status shape s).2 = { s with types } := by
  unfold State.nativeList
  split
  · cases shape with
    | none => exact ⟨s.types, rfl⟩
    | some shape => exact State.createEntries_frame shape s
  · exact ⟨s.types, rfl⟩

variable {status s}

theorem nativeList_of_ne (h : status ≠ .ok) : State.nativeList τ status shape s = ({}, s) := by
  unfold State.nativeList
  rw [if_neg h]

theorem outcome_check_ok (texts : ErrorTexts Unit) (context : String) :
    (check texts .ok context).outcome s = (.ok (), s) :=
  rfl

theorem outcome_check_of_ne (texts : ErrorTexts Unit) (context : String) (h : status ≠ .ok) :
    (check texts status context).outcome s =
      (.error (nativeError texts status (some context) []), s) := by
  rw [check, outcome_within, outcome_throwOnError_of_ne texts status (some context) [] h]

end Lists

namespace KeyValue

variable {s : State} {this : ℕ}

theorem outcome_checkValid_of_null (h : s.load keyValueKv this = .null) :
    (checkValid this).outcome s =
      (.error (.natsError .invalidArg "key_value: not initialized"), s) := by
  rw [checkValid, outcome_bind, outcome_act]
  simp only [if_pos h, outcome_throw]

theorem outcome_checkValid_of_ne (h : s.load keyValueKv this ≠ .null) :
    (checkValid this).outcome s = (.ok (), s) := by
  rw [checkValid, outcome_bind, outcome_act]
  simp only [if_neg h, outcome_pure]

variable {options : Option Status} (texts : ErrorTexts Unit)

theorem outcome_toNativeWatchOptions_ok (h : options.all (fun status => status = .ok) = true) :
    (toNativeWatchOptions texts options).outcome s = (.ok (), s) := by
  cases options with
  | none => rfl
  | some status =>
    obtain rfl : status = .ok := by simpa using h
    rfl

/-- The options are refused where their initialization fails. -/
theorem outcome_toNativeWatchOptions_refused
    (h : ¬ options.all (fun status => status = .ok) = true) :
    ∃ e, (toNativeWatchOptions texts options).outcome s = (.error e, s) := by
  cases options with
  | none => exact absurd rfl h
  | some status =>
    have hne : status ≠ .ok := by simpa using h
    exact ⟨_, outcome_check_of_ne texts _ hne⟩

end KeyValue

/-- How a function leaves a list: as a vector, or destroyed, and then there was no memory for the
vector, or nats.c had returned no list. -/
def Distributed (c : Owner τ) (list : NativeList τ) (reserve : Bool) (s : State) :
    Except Failure (List ℕ) × State → Prop
  | (.ok out, t) => Collected c list s t out
  | (.error _, t) =>
    (∀ h ∈ list.handles, s.Drops t h) ∧ (list = {} ∨ reserve = false)

theorem distributed_throw (c : Owner τ) (reserve : Bool) (s : State) (e : Failure) :
    Distributed c {} reserve s (.error e, s) :=
  ⟨fun _ hh => absurd hh (by simp [NativeList.handles, NativeList.entries]), .inl rfl⟩

theorem distributed_collectNative (texts : ErrorTexts Unit) (c : Owner τ) (context : String)
    (supply : Supply) (s : State) :
    Distributed c (State.nativeList τ supply.status supply.shape s).1 supply.reserve s
      ((collectNative texts c context supply).outcome s) := by
  obtain ⟨status, shape, reserve⟩ := supply
  have hnodup := nodup_nativeList (τ := τ) status shape s
  obtain ⟨types, hframe⟩ := nativeList_frame (τ := τ) status shape s
  rw [collectNative, outcome_bind, outcome_act]
  simp only [outcome_bind, outcome_raise]
  by_cases hok : status = .ok
  · subst hok
    simp only [outcome_check_ok, Except.mapError]
    generalize State.nativeList τ .ok shape s = made at hnodup hframe
    obtain ⟨list, s'⟩ := made
    subst hframe
    cases reserve with
    | true =>
      rw [outcome_collect]
      exact collected_of_objects hnodup rfl rfl
    | false =>
      rw [outcome_collect_badAlloc]
      exact ⟨fun h hh => drops_of_destroyed hnodup (fun _ hx => hx) rfl hh, .inr rfl⟩
  · simp only [outcome_check_of_ne texts context hok, Except.mapError]
    rw [nativeList_of_ne shape hok]
    exact distributed_throw c reserve s _

/-- A call of one of the functions that return a vector, with what its object and its arguments
decide before the native call. -/
inductive BatchCall where
  | fetch (initialized : Bool)
  | fetchRequest (initialized : Bool)
  | history (this : ℕ) (options : Option Status)

namespace BatchCall

def type : BatchCall → NativeType
  | .fetch _ | .fetchRequest _ => .natsMsg
  | .history .. => .kvEntry

def owner : (call : BatchCall) → Owner call.type
  | .fetch _ | .fetchRequest _ => messageMsg
  | .history .. => kvEntryEntry

def run (texts : ErrorTexts Unit) (supply : Supply) : BatchCall → Effect State Failure (List ℕ)
  | .fetch initialized => Subscription.fetch texts initialized supply
  | .fetchRequest initialized => Subscription.fetchRequest texts initialized supply
  | .history this options => KeyValue.history texts this options supply

/-- Whether the call comes to the native function. -/
def reachesNative (s : State) : BatchCall → Bool
  | .fetch initialized | .fetchRequest initialized => initialized
  | .history this options =>
    s.load keyValueKv this ≠ .null && options.all fun status => status = .ok

/-- The list that nats.c returns to the call. -/
def list (supply : Supply) (s : State) (call : BatchCall) : NativeList call.type :=
  if call.reachesNative s then
    (State.nativeList call.type supply.status supply.shape s).1
  else
    {}

theorem distributed (texts : ErrorTexts Unit) (supply : Supply) (s : State) (call : BatchCall) :
    Distributed call.owner (call.list supply s) supply.reserve s
      ((call.run texts supply).outcome s) := by
  cases call with
  | fetch initialized | fetchRequest initialized =>
    cases initialized with
    | false => exact distributed_throw messageMsg supply.reserve s _
    | true => exact distributed_collectNative texts messageMsg _ supply s
  | history this options =>
    show Distributed kvEntryEntry _ supply.reserve s
      ((KeyValue.history texts this options supply).outcome s)
    unfold KeyValue.history BatchCall.list BatchCall.reachesNative
    by_cases hkv : s.load keyValueKv this = .null
    · rw [outcome_bind, outcome_raise, KeyValue.outcome_checkValid_of_null hkv]
      simp only [hkv, ne_eq, not_true_eq_false, decide_false, Bool.false_and]
      exact distributed_throw kvEntryEntry supply.reserve s _
    · rw [outcome_bind, outcome_raise, KeyValue.outcome_checkValid_of_ne hkv]
      simp only [Except.mapError, outcome_bind, outcome_raise]
      by_cases hoptions : options.all (fun status => status = .ok) = true
      · rw [KeyValue.outcome_toNativeWatchOptions_ok texts hoptions]
        simp only [hkv, hoptions, ne_eq, not_false_eq_true, decide_true, Bool.and_self, if_true]
        exact distributed_collectNative texts kvEntryEntry _ supply s
      · obtain ⟨e, he⟩ := KeyValue.outcome_toNativeWatchOptions_refused (s := s) texts hoptions
        rw [he]
        simp only [hoptions, Bool.and_false, Bool.false_eq_true, if_false]
        exact distributed_throw kvEntryEntry supply.reserve s _

end BatchCall

namespace JsPullConsumer

/-- The list that nats.c returns to `next`. -/
def list (this : ℕ) (status : Status) (shape : Option (List Bool)) (s : State) :
    NativeList .natsMsg :=
  if s.load jsPullConsumerSub.toMember this ≠ .null then
    (State.nativeList .natsMsg status shape s).1
  else
    {}

/-- How `next` leaves its list: the message that it returns has the first entry, or there was
none. -/
def FirstTaken (list : NativeList .natsMsg) (s : State) : Except Error ℕ × State → Prop
  | (.ok x, t) => 0 < list.count ∧ t.objectAt x = some (.message (list.get 0)) ∧
    (∀ h ∈ (list.get 0).handles, s.HandsOut t [x] h) ∧
      ∀ h ∈ (list.setNull 0).handles, s.Drops t h
  | (.error _, t) => list.count = 0 ∧ ∀ h ∈ list.handles, s.Drops t h

theorem firstTaken_throw (s : State) (e : Error) : FirstTaken {} s (.error e, s) :=
  ⟨rfl, fun _ hh => absurd hh (by simp [NativeList.handles, NativeList.entries])⟩

variable {list : NativeList .natsMsg} {s : State}

theorem outcome_takeFirst_of_empty (natsTimeout : Status) (h : list.count < 1) :
    (withGuard list (takeFirst natsTimeout)).outcome s = (.error (.natsError natsTimeout
      "natsSubscription_Fetch returned no messages"), s.destroyList list) := by
  have hcond : list.count < 1 ∨ list.array = none := .inl h
  unfold withGuard takeFirst
  simp only [outcome_within, outcome_guarded, outcome_bind, outcome_act, if_pos hcond,
    outcome_throw]

theorem outcome_takeFirst (natsTimeout : Status) (h : ¬ list.count < 1) :
    (withGuard list (takeFirst natsTimeout)).outcome s =
      (.ok s.objects.length,
        (s.allocate (.message (list.get 0))).2.destroyList (list.setNull 0)) := by
  have hcond : ¬ (list.count < 1 ∨ list.array = none) := by
    rintro (hlt | hnone)
    · exact h hlt
    · exact h (by simp [NativeList.count, NativeList.entries, hnone])
  unfold withGuard takeFirst
  simp only [outcome_within, outcome_guarded, outcome_bind, outcome_act, if_neg hcond,
    outcome_update, State.allocate]

/-- The guard leaves the first entry to the message and destroys the others. -/
theorem firstTaken_ok {t : State} (hnodup : list.handles.Nodup) (hcount : 0 < list.count)
    (hobjects : t.objects = s.objects ++ [some (.message (list.get 0))])
    (hdestroyed : t.destroyed = s.destroyed ++ (list.setNull 0).handles) :
    FirstTaken list s (.ok s.objects.length, t) := by
  rw [NativeList.handles_of_pos list hcount, List.nodup_append'] at hnodup
  obtain ⟨-, hnodup, hdisjoint⟩ := hnodup
  have hobject : t.objectAt s.objects.length = some (.message (list.get 0)) := by
    simp [State.objectAt, hobjects]
  refine ⟨hcount, hobject, fun h hh => ?_, fun h hh => ?_⟩
  · refine ⟨⟨s.objects.length, ⟨List.mem_singleton.mpr rfl, _, hobject, hh⟩, ?_⟩, ?_⟩
    · exact fun x hx => List.mem_singleton.mp hx.1
    · rw [hdestroyed, List.count_append, List.count_eq_zero.mpr (hdisjoint hh), Nat.add_zero]
  · refine drops_of_destroyed hnodup (fun x hx => ?_) hdestroyed hh
    obtain ⟨w, hw, hhw⟩ := hx
    by_cases hnew : x = s.objects.length
    · -- the returned message has another entry
      subst hnew
      obtain rfl := Option.some.inj (hobject.symm.trans hw)
      exact absurd hh (hdisjoint hhw)
    · refine ⟨w, ?_, hhw⟩
      have hlt := (List.getElem?_eq_some_iff.mp (getElem?_of_objectAt hw)).1
      rw [hobjects, List.length_append, List.length_singleton] at hlt
      rwa [State.objectAt, hobjects, List.getElem?_append_left (by omega)] at hw

theorem firstTaken_next (texts : ErrorTexts Unit) (natsTimeout : Status) (this : ℕ)
    (status : Status) (shape : Option (List Bool)) (s : State) :
    FirstTaken (JsPullConsumer.list this status shape s) s
      ((next texts natsTimeout this status shape).outcome s) := by
  have hnodup := nodup_nativeList (τ := .natsMsg) status shape s
  obtain ⟨types, hframe⟩ := nativeList_frame (τ := .natsMsg) status shape s
  unfold next JsPullConsumer.list
  rw [outcome_bind, outcome_act]
  by_cases hsub : s.load jsPullConsumerSub.toMember this = .null
  · simp only [hsub, if_true, outcome_throw, ne_eq, not_true_eq_false, if_false]
    exact firstTaken_throw s _
  · simp only [hsub, if_false, ne_eq, not_false_eq_true, if_true]
    rw [outcome_bind, outcome_act]
    simp only [outcome_bind]
    by_cases hok : status = .ok
    · subst hok
      simp only [outcome_check_ok]
      generalize State.nativeList .natsMsg .ok shape s = made at hnodup hframe
      obtain ⟨made, s'⟩ := made
      subst hframe
      by_cases hcount : made.count < 1
      · rw [outcome_takeFirst_of_empty natsTimeout hcount, State.destroyList_eq]
        have hempty : made.entries = [] := List.length_eq_zero_iff.mp (Nat.lt_one_iff.mp hcount)
        refine ⟨Nat.lt_one_iff.mp hcount, fun h hh => ?_⟩
        rw [NativeList.handles, hempty] at hh
        exact absurd hh List.not_mem_nil
      · rw [outcome_takeFirst natsTimeout hcount, State.destroyList_eq]
        have hpos : 0 < made.count := by omega
        exact firstTaken_ok hnodup hpos rfl rfl
    · simp only [outcome_check_of_ne texts _ hok]
      rw [nativeList_of_ne shape hok]
      exact firstTaken_throw s _

end JsPullConsumer

/-- Whatever list nats.c returns, of any length and with any nulls in it, and however the call
ends: each entry is owned by exactly one of the wrappers returned, or it is destroyed once. -/
theorem batch_distributes (texts : ErrorTexts Unit) (s : State) :
    (∀ (call : BatchCall) (supply : Supply),
      Distributed call.owner (call.list supply s) supply.reserve s
        ((call.run texts supply).outcome s)) ∧
    ∀ (natsTimeout : Status) (this : ℕ) (status : Status) (shape : Option (List Bool)),
      JsPullConsumer.FirstTaken (JsPullConsumer.list this status shape s) s
        ((JsPullConsumer.next texts natsTimeout this status shape).outcome s) :=
  ⟨fun call supply => call.distributed texts supply s, fun natsTimeout this status shape =>
    JsPullConsumer.firstTaken_next texts natsTimeout this status shape s⟩

/-- A list of three entries, one of them null, becomes three messages; without memory for the
vector its two native messages are destroyed. -/
example :
    let run (reserve : Bool) := (Subscription.fetch ⟨fun _ => none, fun _ => none⟩ true
      ⟨.ok, some [true, false, true], reserve⟩).outcome {}
    (run true).2.objects = [some (.message (.addr 0)), some (.message .null),
      some (.message (.addr 1))] ∧ (run true).2.destroyed = [] ∧
    (run false).2.objects = [] ∧ (run false).2.destroyed = [⟨.natsMsg, 0⟩, ⟨.natsMsg, 1⟩] := by
  decide

/-! ## The calls in a program -/

section Settled

variable {l : List Handle} {s : State} {list : NativeList τ}

theorem settled_nativeList (status : Status) (shape : Option (List Bool)) (hs : s.Settled l) :
    (State.nativeList τ status shape s).2.Settled
      ((State.nativeList τ status shape s).1.handles ++ l) := by
  unfold State.nativeList
  split
  · cases shape with
    | none => exact hs
    | some shape => exact State.settled_createEntries shape hs
  · exact hs

theorem settled_destroyList (hs : s.Settled (list.handles ++ l)) : (s.destroyList list).Settled l := by
  rw [State.destroyList_eq]
  intro h
  have hbefore := hs h
  rw [List.count_append] at hbefore
  show s.owned.count h + s.user.count h + (s.destroyed ++ list.handles).count h + _ = s.births h
  rw [List.count_append, ← hbefore, State.places]
  omega

/-- Wrappers for all entries own what was in the list. -/
theorem settled_wrapAll (c : Owner τ) (hs : s.Settled (list.handles ++ l)) :
    State.Settled { s with
      objects := s.objects ++ list.entries.map fun p => some (c.wrap p) } l := by
  have howned : (list.entries.map fun p => some (c.wrap p)).flatMap handlesOf = list.handles := by
    simp [List.flatMap_map, handlesOf, c.handles_wrap, NativeList.handles]
  intro h
  have hbefore := hs h
  rw [List.count_append] at hbefore
  show (List.flatMap handlesOf (s.objects ++ _)).count h + s.user.count h + s.destroyed.count h + _ =
    s.births h
  rw [List.flatMap_append, howned, List.count_append, ← hbefore, State.places, State.owned]
  omega

theorem contract_raise {α : Type} {P : State → Prop} {p : Effect State Error α}
    {Q : α → State → Prop} {E : State → Prop} (h : Contract P p Q E) :
    Contract P (raise p) Q E := by
  intro s hs
  have hp := h s hs
  rw [outcome_raise]
  cases hr : p.outcome s with
  | mk r t =>
    rw [hr] at hp
    cases r <;> exact hp

theorem contract_nativeList {ε : Type} (status : Status) (shape : Option (List Bool))
    (E : State → Prop) : Contract (State.Settled · l)
      (act (State.nativeList τ status shape) : Effect State ε (NativeList τ))
      (fun list s => s.Settled (list.handles ++ l) ∧ (status ≠ .ok → list = {})) E := by
  refine Contract.act fun s hs => ⟨settled_nativeList _ _ hs, fun hne => ?_⟩
  rw [nativeList_of_ne shape hne]

/-- An error leaves no list. -/
theorem contract_checkList (texts : ErrorTexts Unit) (status : Status) (context : String) :
    Contract (fun s => s.Settled (list.handles ++ l) ∧ (status ≠ .ok → list = {}))
      (check texts status context) (fun _ => (State.Settled · (list.handles ++ l)))
      (State.Settled · l) := by
  refine (contract_check texts _ status context).weaken (fun _ hs => hs) (fun _ _ hs => hs.1.1) ?_
  intro s hs
  obtain ⟨⟨hsettled, hempty⟩, hne⟩ := hs
  rwa [hempty hne] at hsettled

theorem contract_collectNative (texts : ErrorTexts Unit) (c : Owner τ) (context : String)
    (supply : Supply) : Contract (State.Settled · l) (collectNative texts c context supply)
      (fun _ => (State.Settled · l)) (State.Settled · l) := by
  refine Contract.bind (contract_nativeList supply.status supply.shape _) fun list => ?_
  refine Contract.bind (contract_raise (contract_checkList texts supply.status context)) fun _ => ?_
  intro s hs
  cases supply.reserve with
  | true =>
    rw [outcome_collect]
    exact settled_wrapAll c hs
  | false =>
    rw [outcome_collect_badAlloc, ← State.destroyList_eq]
    exact settled_destroyList hs

theorem BatchCall.contract (texts : ErrorTexts Unit) (supply : Supply) (call : BatchCall) :
    Contract (State.Settled · l) (call.run texts supply) (fun _ => (State.Settled · l))
      (State.Settled · l) := by
  cases call with
  | fetch initialized | fetchRequest initialized =>
    refine Contract.bind (Q := fun _ => (State.Settled · l)) ?_ fun _ =>
      contract_collectNative texts _ _ supply
    cases initialized <;> exact fun _ hs => hs
  | history this options =>
    refine Contract.bind (Q := fun _ => (State.Settled · l)) ?_ fun _ =>
      Contract.bind (Q := fun _ => (State.Settled · l)) ?_ fun _ =>
        contract_collectNative texts _ _ supply
    · intro s hs
      by_cases hkv : s.load keyValueKv this = .null
      · rw [outcome_raise, KeyValue.outcome_checkValid_of_null hkv]
        exact hs
      · rw [outcome_raise, KeyValue.outcome_checkValid_of_ne hkv]
        exact hs
    · cases options with
      | none => exact fun _ hs => hs
      | some status => exact contract_raise (keeps_check texts status _)

theorem JsPullConsumer.keeps_next (texts : ErrorTexts Unit) (natsTimeout : Status) (this : ℕ)
    (status : Status) (shape : Option (List Bool)) :
    Keeps l (next texts natsTimeout this status shape) := by
  refine Contract.bind (Q := fun _ => (State.Settled · l)) (Contract.act fun _ hs => hs)
    fun sub => ?_
  by_cases hsub : sub = .null
  · rw [if_pos hsub]
    exact Contract.throw fun _ hs => hs
  · rw [if_neg hsub]
    refine Contract.bind (contract_nativeList status shape _) fun list => ?_
    refine Contract.bind (contract_checkList texts status _) fun _ s hs => ?_
    by_cases hcount : list.count < 1
    · rw [outcome_takeFirst_of_empty natsTimeout hcount]
      exact settled_destroyList hs
    · rw [outcome_takeFirst natsTimeout hcount]
      have hpos : 0 < list.count := by omega
      rw [list.handles_of_pos hpos, List.append_assoc] at hs
      exact settled_destroyList (State.Settled.allocate (w := .message (list.get 0)) hs)

/-- After a call from a state in which every handle has its place, every handle has it again: the
entries are destroyed once or owned by one wrapper among all there are. -/
theorem BatchCall.destroysOnce (texts : ErrorTexts Unit) (supply : Supply) (call : BatchCall)
    (hs : s.Settled []) : ((call.run texts supply).outcome s).2.DestroysOnce := by
  have hcontract := call.contract texts supply s hs
  cases hrun : (call.run texts supply).outcome s with
  | mk r t =>
    rw [hrun] at hcontract
    cases r <;> exact State.Settled.destroysOnce hcontract

end Settled

end NatsCpp.Handles
