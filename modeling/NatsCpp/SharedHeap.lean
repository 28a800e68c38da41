import Mathlib.Data.Finset.Basic
import Mathlib.Logic.Function.Basic

/-!
# Shared ownership of heap objects

Addresses carry control blocks. A block names its owners, so that its use count
is their number, and a block without owners cannot be built: the release of the
last owner frees the address. Freed addresses may be reused by the allocator,
so it is the value stored in a block that identifies the object.
-/
namespace NatsCpp

structure ControlBlock (ω α : Type*) where
  value : α
  owners : Finset ω
  owned : owners.Nonempty

abbrev SharedHeap (ι ω α : Type*) := ι → Option (ControlBlock ω α)

namespace SharedHeap

variable {ι ω α : Type*}

/-- The object at an address, if the address is allocated. -/
def value (h : SharedHeap ι ω α) (i : ι) : Option α := (h i).map (·.value)

/-- The owners of the object at an address; none for a free address. -/
def owners (h : SharedHeap ι ω α) (i : ι) : Finset ω := (h i).elim ∅ (·.owners)

/-- A new object with one owner. -/
def make [DecidableEq ι] (h : SharedHeap ι ω α) (i : ι) (v : α) (w : ω) : SharedHeap ι ω α :=
  Function.update h i (some ⟨v, {w}, Finset.singleton_nonempty w⟩)

/-- One more owner of an existing object. -/
def share [DecidableEq ι] [DecidableEq ω] (h : SharedHeap ι ω α) (i : ι) (w : ω) :
    SharedHeap ι ω α :=
  Function.update h i ((h i).map fun b =>
    ⟨b.value, insert w b.owners, Finset.insert_nonempty w b.owners⟩)

/-- The object at an address is changed in place. -/
def modify [DecidableEq ι] (h : SharedHeap ι ω α) (i : ι) (f : α → α) : SharedHeap ι ω α :=
  Function.update h i ((h i).map fun b => ⟨f b.value, b.owners, b.owned⟩)

/-- The owner `w` lets go of a block; the last one to let go frees it. -/
def release [DecidableEq ω] (b : ControlBlock ω α) (w : ω) : Option (ControlBlock ω α) :=
  if hb : (b.owners.erase w).Nonempty then some ⟨b.value, b.owners.erase w, hb⟩ else none

/-- The owner `w` lets go of every object at an address that satisfies `p`. -/
def dropAll [DecidableEq ω] (h : SharedHeap ι ω α) (p : ι → Prop) [DecidablePred p] (w : ω) :
    SharedHeap ι ω α :=
  fun i => if p i then (h i).bind (release · w) else h i

def drop [DecidableEq ι] [DecidableEq ω] (h : SharedHeap ι ω α) (i : ι) (w : ω) :
    SharedHeap ι ω α :=
  h.dropAll (· = i) w

/-- The share of the owner `w` passes to `w'`. -/
def transfer [DecidableEq ι] [DecidableEq ω] (h : SharedHeap ι ω α) (i : ι) (w w' : ω) :
    SharedHeap ι ω α :=
  (h.share i w').drop i w

theorem value_eq_none_iff (h : SharedHeap ι ω α) (i : ι) : h.value i = none ↔ h.owners i = ∅ := by
  cases hb : h i with
  | none => simp [value, owners, hb]
  | some b => simpa [value, owners, hb] using b.owned.ne_empty

theorem value_ne_none_of_owner (h : SharedHeap ι ω α) {i : ι} {w : ω} (hw : w ∈ h.owners i) :
    h.value i ≠ none := by
  rw [ne_eq, value_eq_none_iff]
  exact Finset.ne_empty_of_mem hw

section Make

variable [DecidableEq ι] (h : SharedHeap ι ω α) (i j : ι)

@[simp] theorem value_make (v : α) (w : ω) :
    (h.make i v w).value j = if j = i then some v else h.value j := by
  by_cases hj : j = i
  · subst hj
    simp [make, value]
  · simp [make, value, hj]

@[simp] theorem owners_make (v : α) (w : ω) :
    (h.make i v w).owners j = if j = i then {w} else h.owners j := by
  by_cases hj : j = i
  · subst hj
    simp [make, owners]
  · simp [make, owners, hj]

@[simp] theorem value_modify (f : α → α) :
    (h.modify i f).value j = if j = i then (h.value j).map f else h.value j := by
  by_cases hj : j = i
  · subst hj
    cases hb : h j <;> simp [modify, value, hb]
  · simp [modify, value, hj]

@[simp] theorem owners_modify (f : α → α) : (h.modify i f).owners j = h.owners j := by
  by_cases hj : j = i
  · subst hj
    cases hb : h j <;> simp [modify, owners, hb]
  · simp [modify, owners, hj]

variable [DecidableEq ω]

@[simp] theorem value_share (w : ω) : (h.share i w).value j = h.value j := by
  by_cases hj : j = i
  · subst hj
    cases hb : h j <;> simp [share, value, hb]
  · simp [share, value, hj]

@[simp] theorem owners_share (w : ω) : (h.share i w).owners j =
    if j = i ∧ h.value i ≠ none then insert w (h.owners j) else h.owners j := by
  by_cases hj : j = i
  · subst hj
    cases hb : h j <;> simp [share, owners, value, hb]
  · simp [share, owners, hj]

end Make

section Drop

variable [DecidableEq ω] (h : SharedHeap ι ω α) (j : ι) (p : ι → Prop) [DecidablePred p] (w : ω)

@[simp] theorem owners_dropAll :
    (h.dropAll p w).owners j = if p j then (h.owners j).erase w else h.owners j := by
  by_cases hj : p j
  · cases hb : h j with
    | none => simp [dropAll, owners, hb]
    | some b =>
      by_cases hne : (b.owners.erase w).Nonempty
      · simp [dropAll, release, owners, hb, hj, hne]
      · have he := Finset.not_nonempty_iff_eq_empty.mp hne
        simp [dropAll, release, owners, hb, hj, he]
  · simp [dropAll, owners, hj]

/-- Letting go frees exactly the objects that have no other owner. -/
theorem value_dropAll : (h.dropAll p w).value j =
    if p j ∧ (h.owners j).erase w = ∅ then none else h.value j := by
  by_cases hj : p j
  · cases hb : h j with
    | none => simp [dropAll, value, hb]
    | some b =>
      by_cases hne : (b.owners.erase w).Nonempty
      · simp [dropAll, release, value, owners, hb, hj, hne, hne.ne_empty]
      · have he := Finset.not_nonempty_iff_eq_empty.mp hne
        simp [dropAll, release, value, owners, hb, hj, he]
  · simp [dropAll, value, hj]

/-- An object survives as long as somebody else owns it. -/
theorem value_dropAll_of_owner {w' : ω} (hw : w' ∈ h.owners j) (hne : w' ≠ w) :
    (h.dropAll p w).value j = h.value j := by
  have herase : (h.owners j).erase w ≠ ∅ :=
    Finset.ne_empty_of_mem (Finset.mem_erase.mpr ⟨hne, hw⟩)
  rw [value_dropAll, if_neg fun hn => herase hn.2]

variable [DecidableEq ι] (i : ι)

@[simp] theorem owners_drop :
    (h.drop i w).owners j = if j = i then (h.owners j).erase w else h.owners j :=
  owners_dropAll h j _ w

theorem value_drop_of_owner {w' : ω} (hw : w' ∈ h.owners j) (hne : w' ≠ w) :
    (h.drop i w).value j = h.value j :=
  value_dropAll_of_owner h j _ w hw hne

theorem value_drop_of_ne (hj : j ≠ i) : (h.drop i w).value j = h.value j := by
  simp [drop, value_dropAll, hj]

end Drop

/-! ## Through a pointer that may be null -/

section Pointer

variable [DecidableEq ι] [DecidableEq ω] (h : SharedHeap ι ω α) (p : Option ι) (j : ι)

/-- The owner `w` resets a pointer. -/
def reset (h : SharedHeap ι ω α) (p : Option ι) (w : ω) : SharedHeap ι ω α :=
  p.elim h (h.drop · w)

/-- The owner `w` moves a pointer to `w'`. -/
def move (h : SharedHeap ι ω α) (p : Option ι) (w w' : ω) : SharedHeap ι ω α :=
  p.elim h (h.transfer · w w')

theorem owners_reset (w : ω) :
    (h.reset p w).owners j = if p = some j then (h.owners j).erase w else h.owners j := by
  cases p with
  | none => rfl
  | some i => simp only [reset, Option.elim_some, owners_drop, Option.some.injEq, eq_comm]

theorem value_reset (w : ω) : (h.reset p w).value j =
    if p = some j ∧ (h.owners j).erase w = ∅ then none else h.value j := by
  cases p with
  | none => simp [reset]
  | some i => simp only [reset, drop, Option.elim_some, value_dropAll, Option.some.injEq, eq_comm]

/-- An object that nobody else has come to own goes as if it had not been made. -/
theorem reset_make {i : ι} (hi : h.value i = none) (v : α) (w : ω) :
    (h.make i v w).reset (some i) w = h := by
  funext k
  by_cases hk : k = i
  · subst k
    have hnone : h i = none := Option.map_eq_none_iff.mp hi
    simp [reset, drop, dropAll, make, release, hnone]
  · simp [reset, drop, dropAll, make, hk]

/-- Resetting a pointer frees the object if nobody else owns it. -/
theorem value_reset_eq_none_iff {w : ω} (hj : h.value j ≠ none) :
    (h.reset p w).value j = none ↔ p = some j ∧ h.owners j = {w} := by
  have hne : h.owners j ≠ ∅ := fun hn => hj ((value_eq_none_iff h j).mpr hn)
  have herase : (h.owners j).erase w = ∅ ↔ h.owners j = {w} := by
    rw [Finset.erase_eq_empty_iff, or_iff_right hne]
  rw [value_reset]
  constructor
  · intro hnone
    split_ifs at hnone with hp
    · exact ⟨hp.1, herase.mp hp.2⟩
    · exact (hj hnone).elim
  · rintro ⟨hp, howners⟩
    rw [if_pos ⟨hp, herase.mpr howners⟩]

theorem value_reset_or (w : ω) :
    (h.reset p w).value j = none ∨ (h.reset p w).value j = h.value j := by
  rw [value_reset]
  split_ifs
  · exact .inl rfl
  · exact .inr rfl

theorem mem_owners_reset {w v : ω} :
    v ∈ (h.reset p w).owners j ↔ v ∈ h.owners j ∧ ¬ (p = some j ∧ v = w) := by
  rw [owners_reset]
  split_ifs with hp
  · rw [Finset.mem_erase]
    tauto
  · tauto

variable {w w' : ω} (hne : w' ≠ w)
include hne

theorem mem_owners_transfer {i : ι} {v : ω} : v ∈ (h.transfer i w w').owners j ↔
    (v ∈ h.owners j ∧ ¬ (j = i ∧ v = w)) ∨ (j = i ∧ h.value i ≠ none ∧ v = w') := by
  by_cases hj : j = i
  · subst j
    by_cases hv : h.value i = none
    · have howners := (value_eq_none_iff h i).mp hv
      simp [transfer, howners, hv]
    · simp only [transfer, owners_drop, owners_share, hv, if_true, ne_eq, not_false_iff, and_self,
        Finset.mem_erase, Finset.mem_insert, true_and]
      constructor
      · rintro ⟨hvw, rfl | hmem⟩
        · exact .inr rfl
        · exact .inl ⟨hmem, hvw⟩
      · rintro (⟨hmem, hvw⟩ | rfl)
        · exact ⟨hvw, .inr hmem⟩
        · exact ⟨hne, .inl rfl⟩
  · simp [transfer, hj]

/-- A pointer that changes hands keeps its object alive. -/
theorem value_transfer (i : ι) : (h.transfer i w w').value j = h.value j := by
  by_cases hj : j = i
  · subst j
    by_cases hv : h.value i = none
    · rw [hv, value_eq_none_iff, transfer, owners_drop, owners_share]
      simp [hv, (value_eq_none_iff h i).mp hv]
    · have hmem : w' ∈ (h.share i w').owners i := by simp [hv]
      rw [transfer, value_drop_of_owner _ _ _ _ hmem hne, value_share]
  · rw [transfer, value_drop_of_ne _ _ _ _ hj, value_share]

theorem value_move : (h.move p w w').value j = h.value j := by
  cases p with
  | none => rfl
  | some i => exact value_transfer h j hne i

theorem mem_owners_move {v : ω} : v ∈ (h.move p w w').owners j ↔
    (v ∈ h.owners j ∧ ¬ (p = some j ∧ v = w)) ∨ (p = some j ∧ h.value j ≠ none ∧ v = w') := by
  cases p with
  | none => simp [move]
  | some i =>
    rw [move, Option.elim_some, mem_owners_transfer h j hne, Option.some.injEq]
    constructor
    · rintro (⟨hmem, hij⟩ | ⟨rfl, hv, rfl⟩)
      · exact .inl ⟨hmem, fun hn => hij ⟨hn.1.symm, hn.2⟩⟩
      · exact .inr ⟨rfl, hv, rfl⟩
    · rintro (⟨hmem, hij⟩ | ⟨rfl, hv, rfl⟩)
      · exact .inl ⟨hmem, fun hn => hij ⟨hn.1.symm, hn.2⟩⟩
      · exact .inr ⟨rfl, hv, rfl⟩

/-- A pointer that changes hands leaves the other objects alone. -/
theorem owners_move_of_ne (hp : p ≠ some j) : (h.move p w w').owners j = h.owners j := by
  ext v
  rw [mem_owners_move h p j hne]
  simp [hp]

end Pointer

/-- Between two heaps, every object with an owner in `P` keeps that owner and stays alive. -/
def Keeps (P : ι → ω → Prop) (h h' : SharedHeap ι ω α) : Prop :=
  ∀ ⦃i w⦄, w ∈ h.owners i → P i w → w ∈ h'.owners i ∧ h'.value i = h.value i

namespace Keeps

variable {P : ι → ω → Prop} {h h' h'' : SharedHeap ι ω α}

theorem refl : Keeps P h h := fun _ _ hw _ => ⟨hw, rfl⟩

theorem trans (hh : Keeps P h h') (hh' : Keeps P h' h'') : Keeps P h h'' := by
  intro i w hw hP
  obtain ⟨hw', hv⟩ := hh hw hP
  obtain ⟨hw'', hv'⟩ := hh' hw' hP
  exact ⟨hw'', hv'.trans hv⟩

/-- The allocator only hands out free addresses. -/
theorem make [DecidableEq ι] {i : ι} (hi : h.value i = none) (v : α) (w : ω) :
    Keeps P h (h.make i v w) := by
  intro j w' hw' _
  have hj : j ≠ i := by
    rintro rfl
    exact value_ne_none_of_owner h hw' hi
  simpa [hj] using hw'

variable [DecidableEq ω]

theorem share [DecidableEq ι] (i : ι) (w : ω) : Keeps P h (h.share i w) := by
  intro j w' hw' _
  refine ⟨?_, value_share h i j w⟩
  rw [owners_share]
  split_ifs
  · exact Finset.mem_insert_of_mem hw'
  · exact hw'

/-- Letting go of objects outside `P` leaves those in `P` alone. -/
theorem dropAll (p : ι → Prop) [DecidablePred p] {w : ω} (hw : ∀ i, p i → ¬ P i w) :
    Keeps P h (h.dropAll p w) := by
  intro j w' hw' hP
  by_cases hj : p j
  · have hne : w' ≠ w := by
      rintro rfl
      exact hw j hj hP
    refine ⟨?_, value_dropAll_of_owner h j p w hw' hne⟩
    rw [owners_dropAll, if_pos hj]
    exact Finset.mem_erase.mpr ⟨hne, hw'⟩
  · rw [owners_dropAll, if_neg hj, value_dropAll, if_neg fun hn => hj hn.1]
    exact ⟨hw', rfl⟩

theorem drop [DecidableEq ι] {i : ι} {w : ω} (hw : ¬ P i w) : Keeps P h (h.drop i w) :=
  dropAll _ (by rintro _ rfl; exact hw)

end Keeps

/-- Between two heaps, no object gains an owner in `P`. -/
def NoGain (P : ι → ω → Prop) (h h' : SharedHeap ι ω α) : Prop :=
  ∀ ⦃i w⦄, w ∈ h'.owners i → P i w → w ∈ h.owners i

namespace NoGain

variable {P : ι → ω → Prop} {h h' : SharedHeap ι ω α}

theorem refl : NoGain P h h := fun _ _ hw _ => hw

theorem make [DecidableEq ι] (hh : NoGain P h h') {i : ι} (v : α) {w : ω} (hw : ¬ P i w) :
    NoGain P h (h'.make i v w) := by
  intro j w' hw' hP
  rw [owners_make] at hw'
  split_ifs at hw' with hj
  · obtain rfl := Finset.mem_singleton.mp hw'
    exact (hw (hj ▸ hP)).elim
  · exact hh hw' hP

variable [DecidableEq ω]

theorem share [DecidableEq ι] (hh : NoGain P h h') {i : ι} {w : ω} (hw : ¬ P i w) :
    NoGain P h (h'.share i w) := by
  intro j w' hw' hP
  rw [owners_share] at hw'
  split_ifs at hw' with hj
  · rcases Finset.mem_insert.mp hw' with rfl | hw'
    · exact (hw (hj.1 ▸ hP)).elim
    · exact hh hw' hP
  · exact hh hw' hP

theorem dropAll (hh : NoGain P h h') (p : ι → Prop) [DecidablePred p] (w : ω) :
    NoGain P h (h'.dropAll p w) := by
  intro j w' hw' hP
  rw [owners_dropAll] at hw'
  split_ifs at hw'
  · exact hh (Finset.mem_of_mem_erase hw') hP
  · exact hh hw' hP

theorem drop [DecidableEq ι] (hh : NoGain P h h') (i : ι) (w : ω) : NoGain P h (h'.drop i w) :=
  hh.dropAll _ w

end NoGain

/-- Between two heaps, allocated objects gain no owner and do not change; only
free addresses may have been allocated. -/
def Shrinks (h h' : SharedHeap ι ω α) : Prop :=
  ∀ ⦃i⦄, h.value i ≠ none → h'.owners i ⊆ h.owners i ∧ (h'.value i = none ∨ h'.value i = h.value i)

namespace Shrinks

variable {h h' : SharedHeap ι ω α}

theorem refl : Shrinks h h := fun _ _ => ⟨Finset.Subset.refl _, .inr rfl⟩

variable [DecidableEq ω]

/-- An address is allocated and shared at once. -/
theorem makeShare [DecidableEq ι] {i : ι} (hi : h.value i = none) (v : α) (w w' : ω) :
    Shrinks h ((h.make i v w).share i w') := by
  intro j hj
  have hne : j ≠ i := by
    rintro rfl
    exact hj hi
  simp [hne]

/-- Letting go of objects afterwards makes no difference. -/
theorem dropAll (hh : Shrinks h h') (p : ι → Prop) [DecidablePred p] (w : ω) :
    Shrinks h (h'.dropAll p w) := by
  intro j hj
  obtain ⟨howners, hvalue⟩ := hh hj
  rw [owners_dropAll, value_dropAll]
  constructor
  · split_ifs
    · exact (Finset.erase_subset _ _).trans howners
    · exact howners
  · split_ifs
    · exact .inl rfl
    · exact hvalue

end Shrinks

end SharedHeap

end NatsCpp
