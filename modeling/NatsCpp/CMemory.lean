import NatsCpp.Contracts
import Mathlib.Data.List.Nodup
import Mathlib.Data.Nat.Notation
import Mathlib.Logic.Function.Basic

/-!
# A memory whose blocks are freed by hand

A block is allocated at an address that was never used before, it is read
through pointers, and it is freed once. An access through a pointer that leads
to no live block of the expected form is recorded as a fault. Requests for
further memory may be refused. Which blocks a computation owns is a ledger: a
list of addresses with their blocks, beside a base that it does not touch.
-/
namespace NatsCpp.CMemory
open Effect

variable {β γ ε : Type}

/-- `supply` has the answers to the next requests for memory; those after its end are granted. -/
structure Memory (β : Type) where
  blocks : List (Option β) := []
  fault : Bool := false
  supply : List Bool := []

namespace Memory

variable (m : Memory β)

/-- The live block at an address. -/
def content (a : ℕ) : Option β := m.blocks[a]?.join

def allocate (b : β) : ℕ × Memory β :=
  (m.blocks.length, { m with blocks := m.blocks ++ [some b] })

/-- `free`, which does nothing for a null pointer. -/
def free : Option ℕ → Memory β
  | none => m
  | some a =>
    if (m.content a).isSome then
      { m with blocks := m.blocks.set a none }
    else
      { m with fault := true }

/-- Every request for memory that is still to come is granted. -/
def Generous : Prop := ∀ granted ∈ m.supply, granted = true

/-- The request is granted that has so many requests before it. -/
def Grants (i : ℕ) : Prop := m.supply.getD i true = true

instance (i : ℕ) : Decidable (m.Grants i) := inferInstanceAs (Decidable (_ = _))

/-- The next request has been answered. -/
def answered : Memory β := { m with supply := m.supply.tail }

end Memory

/-- Reads a part of the block that a pointer leads to. -/
def load [Inhabited γ] (view : β → Option γ) (p : Option ℕ) : Effect (Memory β) ε γ :=
  act fun m =>
    match (p.bind m.content).bind view with
    | some c => (c, m)
    | none => (default, { m with fault := true })

/-- A request for memory. -/
def request (refused : ε) : Effect (Memory β) ε Unit := do
  let granted ← act fun m : Memory β => (m.supply.headD true, m.answered)
  if granted then pure () else throw refused

/-- The results of a loop over an index, in order. -/
def gather {σ α : Type} (n : ℕ) (f : ℕ → Effect σ ε α) : Effect σ ε (List α) :=
  match n with
  | 0 => pure []
  | n + 1 => do
    let as ← gather n f
    let a ← f n
    pure (as ++ [a])

/-- The memory is the base and the blocks of the ledger. If `rich`, no request is refused. -/
structure Owned (base : ℕ → Option β) (rich : Prop) (ledger : List (ℕ × β)) (m : Memory β) :
    Prop where
  noFault : m.fault = false
  nodup : (ledger.map Prod.fst).Nodup
  live : ∀ a b, (a, b) ∈ ledger → m.content a = some b
  fresh : ∀ a, a ∈ ledger.map Prod.fst → base a = none
  kept : ∀ a, a ∉ ledger.map Prod.fst → m.content a = base a
  generous : rich → m.Generous

/-- The computation gives this value and leaves the ledger as it is; it throws only if memory
is refused. -/
def Copies {α : Type} (base : ℕ → Option β) (rich : Prop) (ledger : List (ℕ × β))
    (p : Effect (Memory β) ε α) (value : α) : Prop :=
  Contract (Owned base rich ledger) p (fun a m => a = value ∧ Owned base rich ledger m)
    fun m => Owned base rich ledger m ∧ ¬ rich

/-- The computation gives this value and changes nothing. -/
def Reads {α : Type} (base : ℕ → Option β) (ledger : List (ℕ × β)) (p : Effect (Memory β) ε α)
    (value : α) : Prop :=
  ∀ rich m, Owned base rich ledger m → p.outcome m = (.ok value, m)

/-! ## The memory -/

section Content

variable {m : Memory β} {a : ℕ} {b : β}

theorem lt_of_content (h : m.content a = some b) : a < m.blocks.length := by
  by_contra hle
  rw [Memory.content, List.getElem?_eq_none (Nat.le_of_not_lt hle)] at h
  exact absurd h (by simp)

theorem content_of_length_le (h : m.blocks.length ≤ a) : m.content a = none := by
  rw [Memory.content, List.getElem?_eq_none h]
  rfl

theorem content_allocate_self (m : Memory β) (b : β) :
    (m.allocate b).2.content (m.allocate b).1 = some b := by
  simp [Memory.allocate, Memory.content]

theorem content_allocate_ne (b : β) (h : a ≠ (m.allocate b).1) :
    (m.allocate b).2.content a = m.content a := by
  simp only [Memory.allocate] at h
  simp only [Memory.allocate, Memory.content]
  rcases Nat.lt_or_ge a m.blocks.length with hlt | hge
  · rw [List.getElem?_append_left hlt]
  · rw [List.getElem?_eq_none hge, List.getElem?_eq_none]
    simp only [List.length_append, List.length_singleton]
    omega

theorem free_of_live (h : m.content a = some b) :
    m.free (some a) = { m with blocks := m.blocks.set a none } := by
  rw [Memory.free, h]
  rfl

theorem content_free_self (h : m.content a = some b) : (m.free (some a)).content a = none := by
  rw [free_of_live h]
  simp [Memory.content, lt_of_content h]

theorem content_free_ne {c : ℕ} (hne : c ≠ a) : (m.free (some a)).content c = m.content c := by
  rw [Memory.free]
  split
  · simp only [Memory.content, List.getElem?_set_ne (Ne.symm hne)]
  · rfl

end Content

theorem grants_answered (m : Memory β) (i : ℕ) : m.answered.Grants i ↔ m.Grants (i + 1) := by
  cases hsupply : m.supply <;> simp [Memory.Grants, Memory.answered, hsupply]

theorem outcome_request {m : Memory β} (h : m.Grants 0) (refused : ε) :
    (request refused).outcome m = (.ok (), m.answered) := by
  have hhead : m.supply.headD true = true := by
    cases hsupply : m.supply <;> simp_all [Memory.Grants]
  rw [request, outcome_bind, outcome_act]
  simp only [hhead, if_true, outcome_pure]

theorem outcome_request_refused {m : Memory β} (h : ¬ m.Grants 0) (refused : ε) :
    (request refused).outcome m = (.error refused, m.answered) := by
  have hhead : m.supply.headD true = false := by
    cases hsupply : m.supply <;> simp_all [Memory.Grants]
  rw [request, outcome_bind, outcome_act]
  simp only [hhead, Bool.false_eq_true, if_false, outcome_throw]

/-! ## Ownership -/

namespace Owned

variable {base : ℕ → Option β} {rich : Prop} {ledger ledger' : List (ℕ × β)} {m : Memory β}
  {a : ℕ} {b : β}

/-- Without blocks of its own a computation has left the memory as it was. -/
theorem content_eq (h : Owned base rich [] m) : m.content = base := by
  funext a
  exact h.kept a (by simp)

theorem of_noFault (hfault : m.fault = false) (hrich : rich → m.Generous) :
    Owned m.content rich [] m where
  noFault := hfault
  nodup := List.nodup_nil
  live := fun a b hab => absurd hab (by simp)
  fresh := fun a ha => absurd ha (by simp)
  kept := fun _ _ => rfl
  generous := hrich

theorem perm (h : Owned base rich ledger m) (hperm : ledger.Perm ledger') :
    Owned base rich ledger' m := by
  have hfst := hperm.map Prod.fst
  exact
    { noFault := h.noFault
      nodup := hfst.nodup_iff.mp h.nodup
      live := fun a b hab => h.live a b (hperm.mem_iff.mpr hab)
      fresh := fun a ha => h.fresh a (hfst.mem_iff.mpr ha)
      kept := fun a ha => h.kept a fun hmem => ha (hfst.mem_iff.mp hmem)
      generous := h.generous }

theorem answered (h : Owned base rich ledger m) : Owned base rich ledger m.answered :=
  { h with generous := fun hrich g hg => h.generous hrich g (List.mem_of_mem_tail hg) }

theorem grants (h : Owned base rich ledger m) (hrich : rich) (i : ℕ) : m.Grants i := by
  rw [Memory.Grants, List.getD_eq_getElem?_getD]
  cases hi : m.supply[i]? with
  | none => rfl
  | some g => exact h.generous hrich g (List.mem_of_getElem? hi)

/-- One block has been added to the base. -/
theorem content_singleton (h : Owned base rich [(a, b)] m) :
    base a = none ∧ m.content = Function.update base a (some b) := by
  refine ⟨h.fresh a (by simp), ?_⟩
  funext c
  by_cases hc : c = a
  · subst hc
    rw [Function.update_self, h.live c b List.mem_cons_self]
  · rw [Function.update_of_ne hc, h.kept c (by simpa using hc)]

/-- A block of the base is still there. -/
theorem content_of_base (h : Owned base rich ledger m) (hb : base a = some b) :
    m.content a = some b := by
  rw [h.kept a fun ha => by simp [h.fresh a ha] at hb, hb]

theorem allocate (h : Owned base rich ledger m) (b : β) :
    Owned base rich (((m.allocate b).1, b) :: ledger) (m.allocate b).2 := by
  have hnew : m.content (m.allocate b).1 = none := content_of_length_le (Nat.le_refl _)
  have hnotMem : (m.allocate b).1 ∉ ledger.map Prod.fst := by
    intro hmem
    obtain ⟨⟨a, c⟩, hac, rfl⟩ := List.mem_map.mp hmem
    rw [h.live _ _ hac] at hnew
    exact absurd hnew (by simp)
  refine
    { noFault := h.noFault
      nodup := List.nodup_cons.mpr ⟨hnotMem, h.nodup⟩
      live := ?_
      fresh := ?_
      kept := ?_
      generous := h.generous }
  · intro a c hac
    rcases List.mem_cons.mp hac with heq | hmem
    · obtain ⟨rfl, rfl⟩ := Prod.mk.inj heq
      exact content_allocate_self m _
    · have hne : a ≠ (m.allocate b).1 := by
        intro heq
        exact hnotMem (heq ▸ List.mem_map_of_mem hmem)
      rw [content_allocate_ne b hne]
      exact h.live a c hmem
  · intro a ha
    rcases List.mem_cons.mp ha with heq | hmem
    · rw [heq, ← h.kept _ hnotMem]
      exact hnew
    · exact h.fresh a hmem
  · intro a ha
    obtain ⟨hne, hrest⟩ := not_or.mp fun hmem => ha (List.mem_cons.mpr hmem)
    rw [content_allocate_ne b hne]
    exact h.kept a hrest

/-- A block that is owned can be freed, and is not owned afterwards. -/
theorem free (h : Owned base rich ((a, b) :: ledger) m) :
    Owned base rich ledger (m.free (some a)) := by
  have hlive := h.live a b List.mem_cons_self
  obtain ⟨hnotMem, hnodup⟩ := List.nodup_cons.mp h.nodup
  refine
    { noFault := ?_
      nodup := hnodup
      live := ?_
      fresh := fun c hc => h.fresh c (List.mem_cons_of_mem a hc)
      kept := ?_
      generous := ?_ }
  · rw [free_of_live hlive]
    exact h.noFault
  · intro c d hcd
    have hmem : c ∈ ledger.map Prod.fst := List.mem_map_of_mem (f := Prod.fst) hcd
    have hne : c ≠ a := by
      intro heq
      exact hnotMem (heq ▸ hmem)
    rw [content_free_ne hne]
    exact h.live c d (List.mem_cons_of_mem _ hcd)
  · intro c hc
    by_cases hca : c = a
    · subst hca
      rw [content_free_self hlive, h.fresh c List.mem_cons_self]
    · rw [content_free_ne hca]
      exact h.kept c fun hmem => (List.mem_cons.mp hmem).elim hca hc
  · intro hrich
    rw [free_of_live hlive]
    exact h.generous hrich

end Owned

/-- The blocks that a list of pointers leads to, without the null pointers. -/
def pointed : List (Option (ℕ × β)) → List (ℕ × β)
  | [] => []
  | none :: entries => pointed entries
  | some entry :: entries => entry :: pointed entries

/-! ## Rules -/

section Rules

variable {α δ : Type} {base : ℕ → Option β} {rich : Prop} {ledger : List (ℕ × β)} {value : α}
  {p : Effect (Memory β) ε α}

/-- What is known of a state beside the precondition may be used as a fact. -/
theorem contract_of_fact {σ : Type} {φ : Prop} {P : σ → Prop} {p : Effect σ ε α}
    {Q : α → σ → Prop} {E : σ → Prop} (h : φ → Contract P p Q E) :
    Contract (fun s => φ ∧ P s) p Q E :=
  fun s hs => h hs.1 s hs.2

namespace Reads

theorem pure (value : α) : Reads base ledger (pure value : Effect (Memory β) ε α) value :=
  fun _ _ _ => rfl

theorem bind {f : α → Effect (Memory β) ε δ} {result : δ} (hp : Reads base ledger p value)
    (hf : Reads base ledger (f value) result) : Reads base ledger (p >>= f) result := by
  intro rich m hm
  rw [outcome_bind_of_ok _ _ _ (hp rich m hm)]
  exact hf rich m hm

theorem load [Inhabited γ] {view : β → Option γ} {ptr : Option ℕ} {c : γ}
    (h : ∀ rich m, Owned base rich ledger m → (ptr.bind m.content).bind view = some c) :
    Reads base ledger (load view ptr : Effect (Memory β) ε γ) c := by
  intro rich m hm
  rw [CMemory.load, outcome_act, h rich m hm]

theorem gather {f : ℕ → Effect (Memory β) ε α} {g : ℕ → α} (n : ℕ)
    (h : ∀ i < n, Reads base ledger (f i) (g i)) :
    Reads base ledger (gather n f) ((List.range n).map g) := by
  induction n with
  | zero => exact Reads.pure []
  | succ n ih =>
    refine (ih fun i hi => h i (Nat.lt_succ_of_lt hi)).bind ?_
    refine (h n (Nat.lt_succ_self n)).bind ?_
    rw [List.range_succ, List.map_append]
    exact Reads.pure _

theorem copies (h : Reads base ledger p value) : Copies base rich ledger p value := by
  intro m hm
  rw [h rich m hm]
  exact ⟨rfl, hm⟩

end Reads

namespace Copies

theorem pure (value : α) : Copies base rich ledger (pure value : Effect (Memory β) ε α) value :=
  Contract.pure fun _ hm => ⟨rfl, hm⟩

theorem bind {f : α → Effect (Memory β) ε δ} {result : δ} (hp : Copies base rich ledger p value)
    (hf : Copies base rich ledger (f value) result) :
    Copies base rich ledger (p >>= f) result := by
  refine Contract.bind hp fun a => contract_of_fact fun ha => ?_
  subst ha
  exact hf

/-- A copy goes on with what follows it. -/
theorem andThen {f : α → Effect (Memory β) ε δ} {R : δ → Memory β → Prop} {E : Memory β → Prop}
    (hp : Copies base rich ledger p value) (hf : Contract (Owned base rich ledger) (f value) R E)
    (hE : ∀ m, Owned base rich ledger m ∧ ¬ rich → E m) :
    Contract (Owned base rich ledger) (p >>= f) R E := by
  refine Contract.bind (hp.weaken (fun _ hm => hm) (fun _ _ hm => hm) hE) fun a =>
    contract_of_fact fun ha => ?_
  subst ha
  exact hf

theorem load [Inhabited γ] {view : β → Option γ} {ptr : Option ℕ} {c : γ}
    (h : ∀ m, Owned base rich ledger m → (ptr.bind m.content).bind view = some c) :
    Copies base rich ledger (load view ptr : Effect (Memory β) ε γ) c := by
  refine Contract.act fun m hm => ?_
  rw [h m hm]
  exact ⟨rfl, hm⟩

/-- Reads from a block that is owned. -/
theorem load_owned [Inhabited γ] {view : β → Option γ} {a : ℕ} {b : β} {c : γ}
    (hmem : (a, b) ∈ ledger) (hview : view b = some c) :
    Copies base rich ledger (CMemory.load view (some a) : Effect (Memory β) ε γ) c := by
  refine load fun m hm => ?_
  rw [Option.bind_some, hm.live a b hmem]
  exact hview

theorem request (refused : ε) :
    Copies base rich ledger (request refused : Effect (Memory β) ε Unit) () := by
  intro m hm
  by_cases hgrants : m.Grants 0
  · rw [outcome_request hgrants]
    exact ⟨rfl, hm.answered⟩
  · rw [outcome_request_refused hgrants]
    exact ⟨hm.answered, fun hrich => hgrants (hm.grants hrich 0)⟩

/-- A loop all of whose rounds are copies. -/
theorem gather {f : ℕ → Effect (Memory β) ε α} {g : ℕ → α} (n : ℕ)
    (h : ∀ i < n, Copies base rich ledger (f i) (g i)) :
    Copies base rich ledger (gather n f) ((List.range n).map g) := by
  induction n with
  | zero => exact Copies.pure []
  | succ n ih =>
    refine (ih fun i hi => h i (Nat.lt_succ_of_lt hi)).bind ?_
    refine (h n (Nat.lt_succ_self n)).bind ?_
    rw [List.range_succ, List.map_append]
    exact Copies.pure _

end Copies

end Rules

end NatsCpp.CMemory
