import NatsCpp.SharedHeap

/-!
# Shared pointers that are moved between objects but not copied

Every object `o` has a member `m o`, a shared pointer into the heap that may be
null; as an owner in the heap the object is `own o`. Other owners may share the
pointees, but no two objects hold the same pointer.
-/
namespace NatsCpp.SharedHeap

variable {κ ι ω α : Type*} {own : κ → ω} {m : κ → Option ι} {h h' : SharedHeap ι ω α}

structure Members (own : κ → ω) (m : κ → Option ι) (h : SharedHeap ι ω α) : Prop where
  owner_iff : ∀ {o i}, own o ∈ h.owners i ↔ m o = some i
  distinct : ∀ {o o' i}, m o = some i → m o' = some i → o = o'

namespace Members

/-- Other owners may come and go. -/
theorem of_owner_iff (hm : Members own m h)
    (howners : ∀ o i, own o ∈ h'.owners i ↔ own o ∈ h.owners i) : Members own m h' where
  owner_iff := (howners _ _).trans hm.owner_iff
  distinct := hm.distinct

/-- If only the objects may be owners, each is the only owner of its pointee. -/
theorem owners_eq (hm : Members own m h) (hsurj : Function.Surjective own) {o : κ} {i : ι}
    (ho : m o = some i) : h.owners i = {own o} := by
  ext w
  obtain ⟨o', rfl⟩ := hsurj w
  rw [Finset.mem_singleton, hm.owner_iff]
  constructor
  · intro ho'
    rw [hm.distinct ho' ho]
  · intro heq
    exact hm.owner_iff.mp (heq ▸ hm.owner_iff.mpr ho)

variable [DecidableEq κ] [DecidableEq ι] [DecidableEq ω] (hinj : Function.Injective own)
include hinj

theorem reset (hm : Members own m h) (o : κ) :
    Members own (Function.update m o none) (h.reset (m o) (own o)) where
  owner_iff {o' i} := by
    rw [mem_owners_reset, hm.owner_iff, hinj.eq_iff, Function.update_apply]
    split_ifs with ho
    · subst o'
      simp
    · simp [ho]
  distinct {o' o'' i} ho' ho'' := by
    rw [Function.update_apply] at ho' ho''
    split_ifs at ho' ho''
    exact hm.distinct ho' ho''

/-- A new pointer `i` goes into the member of `o`, which then lets go of the old one. -/
theorem replace (hm : Members own m h) {o : κ} {i : ι} (hnew : ∀ o', m o' ≠ some i)
    (howners : ∀ o' j, own o' ∈ h'.owners j ↔ own o' ∈ h.owners j ∨ (o' = o ∧ j = i)) :
    Members own (Function.update m o (some i)) (h'.reset (m o) (own o)) where
  owner_iff {o' j} := by
    rw [mem_owners_reset, howners, hm.owner_iff, hinj.eq_iff, Function.update_apply]
    split_ifs with ho
    · subst o'
      have hne := hnew o
      by_cases hj : j = i
      · subst j
        simp [hne]
      · simp [hj, Ne.symm hj]
    · simp [ho]
  distinct {o' o'' j} ho' ho'' := by
    rw [Function.update_apply] at ho' ho''
    split_ifs at ho' ho'' with h1 h2 h2
    · exact h1.trans h2.symm
    · exact (hnew o'' (ho''.trans ho'.symm)).elim
    · exact (hnew o' (ho'.trans ho''.symm)).elim
    · exact hm.distinct ho' ho''

/-- A move assignment to `o` from `src`, which is left with a null pointer. -/
theorem assign (hm : Members own m h) {o src : κ} (hne : o ≠ src) :
    Members own (Function.update (Function.update m o (m src)) src none)
      ((h.move (m src) (own src) (own o)).reset (m o) (own o)) where
  owner_iff {o' i} := by
    have hvalue : m src = some i → h.value i ≠ none := fun hsrc =>
      value_ne_none_of_owner h (hm.owner_iff.mpr hsrc)
    rw [mem_owners_reset, mem_owners_move h _ i (hinj.ne hne), hm.owner_iff, hinj.eq_iff,
      hinj.eq_iff, Function.update_apply, Function.update_apply]
    by_cases hsrc : o' = src
    · subst o'
      simp [hne.symm]
    · by_cases ho : o' = o
      · subst o'
        have hdisj : m src = some i → m o ≠ some i := fun h1 h2 => hne (hm.distinct h2 h1)
        simp only [hsrc, if_false, if_true]
        tauto
      · simp [hsrc, ho]
  distinct {o' o'' i} ho' ho'' := by
    simp only [Function.update_apply] at ho' ho''
    split_ifs at ho' ho'' with h1 h2 h3 h4 h5 h6
    · exact h2.trans h4.symm
    · exact (h3 (hm.distinct ho'' ho')).elim
    · exact (h1 (hm.distinct ho' ho'')).elim
    · exact hm.distinct ho' ho''

end Members

end NatsCpp.SharedHeap
