import Mathlib.Data.Nat.Notation
import Mathlib.Data.List.Basic

/-!
# Native handles and the wrapper objects that own them

The objects of the program live in a memory; an object is a value of one of the
wrapper classes, with the pointers that it stores. Beside the memory stand the
native objects created so far, a log of the calls that destroyed one, and the
handles that the user holds himself. A handle that is in neither place is in
flight: a running function has it in a local variable.
-/
namespace NatsCpp.Handles

/-- The native types, each with its own destroy function. -/
inductive NativeType where
  | natsMsg
  | natsHeader
  | kvEntry
  | kvWatcher
  | kvStore
  | jsCtx
  | natsSubscription
  | jsPubAck
  deriving DecidableEq

/-- Native objects are numbered in the order of their creation. -/
structure Handle where
  type : NativeType
  address : ℕ
  deriving DecidableEq

/-- A pointer to a native type. -/
inductive Pointer (τ : NativeType) where
  | null
  | addr (address : ℕ)
  deriving DecidableEq

def Pointer.handles {τ : NativeType} : Pointer τ → List Handle
  | .null => []
  | .addr address => [⟨τ, address⟩]

@[simp] theorem Pointer.handles_null {τ : NativeType} :
    (Pointer.null : Pointer τ).handles = [] :=
  rfl

/-- An object of a wrapper class, with the pointers that it stores. -/
inductive Wrapper where
  | message (msg : Pointer .natsMsg)
  | header (header : Pointer .natsHeader)
  | kvEntry (entry : Pointer .kvEntry)
  | kvWatcher (watcher : Pointer .kvWatcher)
  | keyValue (ctx : Pointer .jsCtx) (kv : Pointer .kvStore)
  | jetstream (ctx : Pointer .jsCtx)
  | jsPullConsumer (sub : Pointer .natsSubscription)
  | jsPushConsumer (sub : Pointer .natsSubscription)
  deriving DecidableEq

def Wrapper.handles : Wrapper → List Handle
  | .message p => p.handles
  | .header p => p.handles
  | .kvEntry p => p.handles
  | .kvWatcher p => p.handles
  | .keyValue ctx kv => ctx.handles ++ kv.handles
  | .jetstream p => p.handles
  | .jsPullConsumer p => p.handles
  | .jsPushConsumer p => p.handles

/-- What the object at an address owns; nothing after its lifetime. -/
def handlesOf (o : Option Wrapper) : List Handle := o.elim [] Wrapper.handles

/-- `objects` and `blocks` are addressed by position. A block has the automatic objects made
in it, the latest first; it is `none` once it has been left. `parents` records with each
store that the library makes the context that it passes for it. -/
structure State where
  types : List NativeType := []
  destroyed : List Handle := []
  user : List Handle := []
  objects : List (Option Wrapper) := []
  blocks : List (Option (List ℕ)) := []
  parents : List (Pointer .kvStore × Pointer .jsCtx) := []

/-- A pointer member of the wrapper classes: how it is read, where an object has it, and
assigned. -/
structure Member (τ : NativeType) where
  get : Wrapper → Option (Pointer τ)
  set : Pointer τ → Wrapper → Wrapper
  get_set : ∀ {w q} p, get w = some q → get (set p w) = some p
  /-- An assignment exchanges the old pointer for the new one. -/
  exchange : ∀ {w q} p (h : Handle), get w = some q →
    (set p w).handles.count h + q.handles.count h = w.handles.count h + p.handles.count h

/-- A class with one pointer member. -/
structure Owner (τ : NativeType) extends Member τ where
  wrap : Pointer τ → Wrapper
  handles_wrap : ∀ p, (wrap p).handles = p.handles

/-- A class given by its constructor and its member. -/
def Owner.of {τ : NativeType} (wrap : Pointer τ → Wrapper) (get : Wrapper → Option (Pointer τ))
    (hget : ∀ w p, get w = some p ↔ w = wrap p) (hwrap : ∀ p, (wrap p).handles = p.handles) :
    Owner τ where
  get := get
  set := fun p _ => wrap p
  get_set := fun p _ => (hget _ p).mpr rfl
  exchange := fun {w q} p h hq => by
    rw [(hget w q).mp hq, hwrap, hwrap, Nat.add_comm]
  wrap := wrap
  handles_wrap := hwrap

namespace State

variable (s : State)

/-- A native object of this type and number has been created. -/
def Created (h : Handle) : Prop := s.types[h.address]? = some h.type

/-- How often a native object of this type and number has been created. -/
def births (h : Handle) : ℕ := if s.types[h.address]? = some h.type then 1 else 0

def objectAt (x : ℕ) : Option Wrapper := s.objects[x]?.join

def setObject (x : ℕ) (o : Option Wrapper) : State := { s with objects := s.objects.set x o }

/-- A native constructor succeeds. -/
def create (τ : NativeType) : Pointer τ × State :=
  (.addr s.types.length, { s with types := s.types ++ [τ] })

/-- The destroy function of the type, which does nothing for a null pointer. -/
def destroy {τ : NativeType} (p : Pointer τ) : State :=
  { s with destroyed := s.destroyed ++ p.handles }

/-- A new object. -/
def allocate (w : Wrapper) : ℕ × State :=
  (s.objects.length, { s with objects := s.objects ++ [some w] })

/-- The lifetime of an object is over. -/
def forget (x : ℕ) : State := s.setObject x none

variable {τ : NativeType} (m : Member τ)

/-- The value of a member; null where there is no such object. -/
def load (x : ℕ) : Pointer τ := ((s.objectAt x).bind m.get).getD .null

def store (x : ℕ) (p : Pointer τ) : State :=
  match s.objectAt x with
  | none => s
  | some w => if (m.get w).isSome then s.setObject x (some (m.set p w)) else s

/-- What the wrapper objects own. -/
def owned : List Handle := s.objects.flatMap handlesOf

/-- The wrapper at the address owns the handle. -/
def Owns (x : ℕ) (h : Handle) : Prop := ∃ w, s.objectAt x = some w ∧ h ∈ w.handles

/-- In how many places the handle is: in wrappers, with the user, among the destroyed ones. -/
def places (h : Handle) : ℕ := s.owned.count h + s.user.count h + s.destroyed.count h

/-- Every native object created is in one place, or it is one of those in flight. -/
def Settled (inFlight : List Handle) : Prop :=
  ∀ h, s.places h + inFlight.count h = s.births h

/-- Each handle that was created and that the user does not hold is owned by exactly one
wrapper, or it has been destroyed exactly once. -/
def DestroysOnce : Prop :=
  ∀ h, s.Created h → h ∉ s.user →
    ((∃! x, s.Owns x h) ∧ s.destroyed.count h = 0) ∨
      ((∀ x, ¬ s.Owns x h) ∧ s.destroyed.count h = 1)

end State

/-! ## Objects in memory -/

section Objects

variable {s : State} {x y : ℕ} {w : Wrapper} {o o' : Option Wrapper} (h : Handle)

theorem getElem?_of_objectAt (hw : s.objectAt x = some w) : s.objects[x]? = some (some w) := by
  cases hx : s.objects[x]? with
  | none => simp [State.objectAt, hx] at hw
  | some o => simpa [State.objectAt, hx] using hw

theorem objectAt_setObject_self (hw : s.objectAt x = some w) :
    (s.setObject x o).objectAt x = o := by
  have hx : x < s.objects.length := (List.getElem?_eq_some_iff.mp (getElem?_of_objectAt hw)).1
  simp [State.setObject, State.objectAt, List.getElem?_set_self hx]

theorem objectAt_setObject_ne (hxy : x ≠ y) : (s.setObject x o).objectAt y = s.objectAt y := by
  simp only [State.setObject, State.objectAt, List.getElem?_set_ne hxy]

theorem objectAt_allocate_self : (s.allocate w).2.objectAt (s.allocate w).1 = some w := by
  simp [State.allocate, State.objectAt]

theorem objectAt_allocate_of_some {w' : Wrapper} (hy : s.objectAt y = some w') :
    (s.allocate w).2.objectAt y = some w' := by
  have hlen : y < s.objects.length := (List.getElem?_eq_some_iff.mp (getElem?_of_objectAt hy)).1
  rw [← hy]
  simp only [State.allocate, State.objectAt, List.getElem?_append_left hlen]

/-- Another object at an address: what the old one owned is exchanged for what the new one owns. -/
theorem count_flatMap_set {l : List (Option Wrapper)} (hx : l[x]? = some o) :
    ((l.set x o').flatMap handlesOf).count h + (handlesOf o).count h =
      (l.flatMap handlesOf).count h + (handlesOf o').count h := by
  induction l generalizing x with
  | nil => simp at hx
  | cons a as ih =>
    cases x with
    | zero =>
      obtain rfl : a = o := by simpa using hx
      simp only [List.set_cons_zero, List.flatMap_cons, List.count_append]
      omega
    | succ n =>
      have has := ih (by simpa using hx)
      simp only [List.set_cons_succ, List.flatMap_cons, List.count_append]
      omega

theorem count_owned_setObject (hw : s.objectAt x = some w) :
    (s.setObject x o).owned.count h + w.handles.count h =
      s.owned.count h + (handlesOf o).count h :=
  count_flatMap_set h (getElem?_of_objectAt hw)

theorem count_owned_allocate :
    (s.allocate w).2.owned.count h = s.owned.count h + w.handles.count h := by
  simp [State.owned, State.allocate, handlesOf]

end Objects

/-! ## Members of objects -/

section Members

variable {s : State} {x y : ℕ} {w : Wrapper} {τ : NativeType} {m : Member τ} {p q : Pointer τ}

theorem load_of_get (hw : s.objectAt x = some w) (hp : m.get w = some p) : s.load m x = p := by
  simp [State.load, hw, hp]

theorem store_of_get (hw : s.objectAt x = some w) (hq : m.get w = some q) :
    s.store m x p = s.setObject x (some (m.set p w)) := by
  simp [State.store, hw, hq]

/-- A member that the object does not have reads as null and is not assigned. -/
theorem load_store_cases (m : Member τ) (s : State) (x : ℕ) :
    (∃ w p, s.objectAt x = some w ∧ m.get w = some p) ∨
      (s.load m x = .null ∧ ∀ p, s.store m x p = s) := by
  cases hw : s.objectAt x with
  | none =>
    right
    exact ⟨by simp [State.load, hw], fun p => by simp [State.store, hw]⟩
  | some w =>
    cases hp : m.get w with
    | none =>
      right
      exact ⟨by simp [State.load, hw, hp], fun p => by simp [State.store, hw, hp]⟩
    | some p => exact .inl ⟨w, p, rfl, hp⟩

theorem objectAt_store_self (hw : s.objectAt x = some w) (hq : m.get w = some q) :
    (s.store m x p).objectAt x = some (m.set p w) := by
  rw [store_of_get hw hq, objectAt_setObject_self hw]

theorem objectAt_store_ne (hxy : x ≠ y) : (s.store m x p).objectAt y = s.objectAt y := by
  rcases load_store_cases m s x with ⟨w, q, hw, hq⟩ | ⟨-, hstore⟩
  · rw [store_of_get hw hq, objectAt_setObject_ne hxy]
  · rw [hstore]

theorem load_store_ne {σ : NativeType} (m' : Member σ) (hxy : x ≠ y) :
    (s.store m x p).load m' y = s.load m' y := by
  simp only [State.load, objectAt_store_ne hxy]

theorem load_allocate_of_some (hy : s.objectAt y = some w) {w' : Wrapper} :
    (s.allocate w').2.load m y = s.load m y := by
  simp only [State.load, objectAt_allocate_of_some hy, hy]

@[simp] theorem objectAt_destroy {σ : NativeType} (p : Pointer σ) :
    (s.destroy p).objectAt x = s.objectAt x :=
  rfl

@[simp] theorem load_destroy {σ : NativeType} (p : Pointer σ) :
    (s.destroy p).load m x = s.load m x :=
  rfl

theorem store_fields (m : Member τ) (s : State) (x : ℕ) (p : Pointer τ) :
    (s.store m x p).user = s.user ∧ (s.store m x p).destroyed = s.destroyed ∧
      (s.store m x p).types = s.types ∧ (s.store m x p).parents = s.parents := by
  rcases load_store_cases m s x with ⟨w, q, hw, hq⟩ | ⟨-, hstore⟩
  · rw [store_of_get hw hq]
    exact ⟨rfl, rfl, rfl, rfl⟩
  · rw [hstore]
    exact ⟨rfl, rfl, rfl, rfl⟩

end Members

/-! ## What the operations do to the places of a handle -/

section Places

variable {s : State} {x y : ℕ} {w : Wrapper} {τ : NativeType} {m : Member τ} {p q : Pointer τ}

@[simp] theorem births_destroy (p : Pointer τ) (h : Handle) : (s.destroy p).births h = s.births h :=
  rfl

@[simp] theorem births_allocate (w : Wrapper) (h : Handle) :
    (s.allocate w).2.births h = s.births h :=
  rfl

@[simp] theorem births_forget (x : ℕ) (h : Handle) : (s.forget x).births h = s.births h :=
  rfl

@[simp] theorem births_store (m : Member τ) (s : State) (x : ℕ) (p : Pointer τ) (h : Handle) :
    (s.store m x p).births h = s.births h := by
  simp only [State.births, (store_fields m s x p).2.2.1]

/-- A successful constructor yields a handle that did not exist before. -/
theorem births_create (s : State) (τ : NativeType) (h : Handle) :
    (s.create τ).2.births h = s.births h + (s.create τ).1.handles.count h := by
  obtain ⟨type, address⟩ := h
  simp only [State.births, State.create, Pointer.handles, List.count_cons, List.count_nil,
    List.getElem?_append, List.getElem?_cons, List.getElem?_nil, beq_iff_eq, Handle.mk.injEq]
  by_cases hlt : address < s.types.length
  · have hne : s.types.length ≠ address := by omega
    simp [hlt, hne]
  · rw [List.getElem?_eq_none (Nat.le_of_not_lt hlt)]
    by_cases heq : s.types.length = address
    · subst heq
      simp
    · have hsub : address - s.types.length ≠ 0 := by omega
      simp [hlt, hsub, heq]

theorem places_destroy (s : State) (p : Pointer τ) (h : Handle) :
    (s.destroy p).places h = s.places h + p.handles.count h := by
  change s.owned.count h + s.user.count h + (s.destroyed ++ p.handles).count h = _
  rw [List.count_append, State.places]
  omega

theorem places_allocate (s : State) (w : Wrapper) (h : Handle) :
    (s.allocate w).2.places h = s.places h + w.handles.count h := by
  have howned := count_owned_allocate (s := s) (w := w) h
  change (s.allocate w).2.owned.count h + s.user.count h + s.destroyed.count h = _
  rw [howned, State.places]
  omega

theorem places_setObject (hw : s.objectAt x = some w) (o : Option Wrapper) (h : Handle) :
    (s.setObject x o).places h + w.handles.count h = s.places h + (handlesOf o).count h := by
  have howned := count_owned_setObject (o := o) h hw
  change (s.setObject x o).owned.count h + s.user.count h + s.destroyed.count h + _ = _
  rw [State.places]
  omega

theorem places_forget (hw : s.objectAt x = some w) (h : Handle) :
    (s.forget x).places h + w.handles.count h = s.places h :=
  places_setObject hw none h

theorem places_store (hw : s.objectAt x = some w) (hq : m.get w = some q) (p : Pointer τ)
    (h : Handle) :
    (s.store m x p).places h + q.handles.count h = s.places h + p.handles.count h := by
  rw [store_of_get hw hq]
  have hset := places_setObject hw (some (m.set p w)) h
  have hexchange := m.exchange p h hq
  change _ = _ + (m.set p w).handles.count h at hset
  omega

/-- Where null is assigned, the old pointer leaves the object. -/
theorem places_storeNull (m : Member τ) (s : State) (x : ℕ) (h : Handle) :
    (s.store m x .null).places h + (s.load m x).handles.count h = s.places h := by
  rcases load_store_cases m s x with ⟨w, q, hw, hq⟩ | ⟨hload, hstore⟩
  · rw [load_of_get hw hq]
    exact places_store hw hq .null h
  · rw [hload, hstore]
    rfl

end Places

/-! ## Handles in flight -/

namespace State.Settled

variable {s : State} {x : ℕ} {w : Wrapper} {τ : NativeType} {m : Member τ} {p q : Pointer τ}
  {l l' : List Handle}

theorem of_count (hs : s.Settled l) (hl : ∀ h, l'.count h = l.count h) : s.Settled l' := by
  intro h
  rw [hl h]
  exact hs h

/-- The order of the handles in flight does not matter. -/
theorem swap {l₁ l₂ : List Handle} (hs : s.Settled (l₁ ++ (l₂ ++ l))) :
    s.Settled (l₂ ++ (l₁ ++ l)) := by
  refine hs.of_count fun h => ?_
  simp only [List.count_append]
  omega

theorem create (hs : s.Settled l) : (s.create τ).2.Settled ((s.create τ).1.handles ++ l) := by
  intro h
  have hbefore := hs h
  rw [births_create, List.count_append]
  change s.places h + _ = _
  omega

theorem destroy (hs : s.Settled (p.handles ++ l)) : (s.destroy p).Settled l := by
  intro h
  have hbefore := hs h
  rw [List.count_append] at hbefore
  rw [places_destroy, births_destroy]
  omega

theorem allocate (hs : s.Settled (w.handles ++ l)) : (s.allocate w).2.Settled l := by
  intro h
  have hbefore := hs h
  rw [List.count_append] at hbefore
  rw [places_allocate, births_allocate]
  omega

/-- What an object owns is in flight when its lifetime ends. -/
theorem forget (hs : s.Settled l) (hw : s.objectAt x = some w) :
    (s.forget x).Settled (w.handles ++ l) := by
  intro h
  have hbefore := hs h
  have hplaces := places_forget hw h
  rw [List.count_append, births_forget]
  omega

theorem store (hs : s.Settled (p.handles ++ l)) (hw : s.objectAt x = some w)
    (hq : m.get w = some q) : (s.store m x p).Settled (q.handles ++ l) := by
  intro h
  have hbefore := hs h
  have hplaces := places_store hw hq p h
  rw [List.count_append] at hbefore ⊢
  rw [births_store]
  omega

/-- Where null is assigned, the old pointer is in flight. -/
theorem storeNull (hs : s.Settled l) :
    (s.store m x .null).Settled ((s.load m x).handles ++ l) := by
  intro h
  have hbefore := hs h
  have hplaces := places_storeNull m s x h
  rw [List.count_append, births_store]
  omega

end State.Settled

/-! ## One place for each handle -/

section Once

variable {s : State} {h : Handle}

theorem owns_of_count (hc : 0 < s.owned.count h) : ∃ x, s.Owns x h := by
  obtain ⟨o, ho, hmem⟩ := List.mem_flatMap.mp (List.count_pos_iff.mp hc)
  obtain ⟨x, hx⟩ := List.getElem?_of_mem ho
  cases o with
  | none => simp [handlesOf] at hmem
  | some w => exact ⟨x, w, by simp [State.objectAt, hx], hmem⟩

theorem State.Owns.count_pos {x : ℕ} (hx : s.Owns x h) : 0 < s.owned.count h := by
  obtain ⟨w, hw, hmem⟩ := hx
  have hobject := List.mem_of_getElem? (getElem?_of_objectAt hw)
  exact List.count_pos_iff.mpr (List.mem_flatMap.mpr ⟨some w, hobject, hmem⟩)

/-- Two owners would own the handle twice. -/
theorem owns_unique (hc : s.owned.count h = 1) {x y : ℕ} (hx : s.Owns x h) (hy : s.Owns y h) :
    x = y := by
  by_contra hxy
  obtain ⟨w, hw, hmem⟩ := hx
  obtain ⟨w', hw', hmem'⟩ := hy
  have hset := count_owned_setObject (o := none) h hw
  have hstill : (s.setObject x none).Owns y h :=
    ⟨w', by rw [objectAt_setObject_ne hxy, hw'], hmem'⟩
  have hrest := hstill.count_pos
  have hfirst := List.count_pos_iff.mpr hmem
  simp only [handlesOf, Option.elim_none, List.count_nil] at hset
  omega

/-- If no handle is in flight, each has its one place. -/
theorem State.Settled.destroysOnce (hs : s.Settled []) : s.DestroysOnce := by
  intro h hcreated huser
  have hplace := hs h
  have hbirth : s.births h = 1 := if_pos hcreated
  rw [hbirth, State.places, List.count_eq_zero.mpr huser, List.count_nil] at hplace
  by_cases howned : s.owned.count h = 0
  · right
    refine ⟨fun x hx => ?_, by omega⟩
    have hpos := hx.count_pos
    omega
  · left
    obtain ⟨x, hx⟩ := owns_of_count (Nat.pos_of_ne_zero howned)
    exact ⟨⟨x, hx, fun y hy => owns_unique (by omega) hy hx⟩, by omega⟩

end Once

end NatsCpp.Handles
