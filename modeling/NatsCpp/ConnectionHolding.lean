import NatsCpp.ConnectionSteps
import NatsCpp.SharedMember

/-!
# Who holds a native connection, and who destroys it

The control block of `conn_` is owned by the connection object that has it as a
member and by the request tasks that have copied it. When the last of them lets
go, that one and no other takes the native connection through
`natsConnection_Destroy`.
-/
namespace NatsCpp.Connection
open SharedHeap

/-- The native connection that each connection object holds. -/
abbrev State.conn (s : State) : ℕ → Option ℕ := member (·.conn) s.objects

def Deleting.native : Deleting → ℕ
  | .call n | .ret n | .free n => n

/-- The phase of the native connection that is being deleted. -/
def Deleting.phase : Deleting → Phase
  | .call _ => .active
  | .ret _ => .destroying
  | .free _ => .destroyed

/-- A native connection is active while somebody holds it, and has at most one
deletion in progress once nobody does. -/
structure Deletions (s : State) : Prop where
  active : ∀ {n}, s.conns.value n ≠ none → ∃ x, s.natives n = some x ∧ x.phase = .active
  gone : ∀ {p d}, s.deleting p = some d → s.conns.value d.native = none
  phase : ∀ {p d}, s.deleting p = some d → ∃ x, s.natives d.native = some x ∧ x.phase = d.phase
  unique : ∀ {p q d e}, s.deleting p = some d → s.deleting q = some e → d.native = e.native → p = q
  fresh : ∀ {n x}, s.natives n = some x → n < s.fresh

namespace Deletions

variable {s t : State}

theorem frame (h : Deletions s) (hconns : ∀ n, t.conns.value n = s.conns.value n)
    (hdeleting : t.deleting = s.deleting) (hnatives : t.natives = s.natives)
    (hfresh : s.fresh ≤ t.fresh) : Deletions t where
  active {n} hn := by
    rw [hnatives]
    exact h.active (hconns n ▸ hn)
  gone hp := (hconns _).trans (h.gone (hdeleting ▸ hp))
  phase hp := by
    rw [hnatives]
    exact h.phase (hdeleting ▸ hp)
  unique hp hq := h.unique (hdeleting ▸ hp) (hdeleting ▸ hq)
  fresh hn := (h.fresh (hnatives ▸ hn)).trans_le hfresh

/-- The last holder starts the deletion. -/
theorem dropConn (h : Deletions s) {p : Holder} {c : Option ℕ}
    (hc : ∀ n, c = some n → s.conns.value n ≠ none) : Deletions (s.dropConn p c) := by
  cases c with
  | none => exact h
  | some m =>
    have hm : s.conns.value m ≠ none := hc m rfl
    have hgone {n : ℕ} (hn : s.conns.value n = none) : (s.conns.drop m p).value n = none := by
      rcases value_reset_or s.conns (some m) n p with hnone | hsame
      · exact hnone
      · exact hsame.trans hn
    have hdeleting {q : Holder} {d : Deleting} (hq : (s.dropConn p (some m)).deleting q = some d) :
        (q = p ∧ d = .call m ∧ (s.conns.drop m p).value m = none) ∨ s.deleting q = some d := by
      simp only [State.dropConn] at hq
      split_ifs at hq with hnone
      · rcases of_update_eq_some hq with ⟨hqp, hd⟩ | ⟨_, hq⟩
        · exact .inl ⟨hqp, hd, hnone⟩
        · exact .inr hq
      · exact .inr hq
    refine ⟨?_, ?_, ?_, ?_, h.fresh⟩
    · intro n hn
      exact h.active fun hnone => hn (hgone hnone)
    · intro q d hq
      rcases hdeleting hq with ⟨_, rfl, hnone⟩ | hq
      · exact hnone
      · exact hgone (h.gone hq)
    · intro q d hq
      rcases hdeleting hq with ⟨_, rfl, _⟩ | hq
      · exact h.active hm
      · exact h.phase hq
    · intro q q' d e hq hq' heq
      rcases hdeleting hq with ⟨hqp, hd, _⟩ | hold <;>
        rcases hdeleting hq' with ⟨hqp', he, _⟩ | hold'
      · exact hqp.trans hqp'.symm
      · have hnone : s.conns.value e.native = none := h.gone hold'
        rw [← heq, hd] at hnone
        exact (hm hnone).elim
      · have hnone : s.conns.value d.native = none := h.gone hold
        rw [heq, he] at hnone
        exact (hm hnone).elim
      · exact h.unique hold hold' heq

/-- A native connection is made and put into a control block. -/
theorem make (h : Deletions s) {x : Native} {w : Holder}
    (hconns : t.conns = s.conns.make s.fresh () w) (hdeleting : t.deleting = s.deleting)
    (hnatives : t.natives = Function.update s.natives s.fresh (some x))
    (hfresh : t.fresh = s.fresh + 1) (hx : x.phase = .active) : Deletions t := by
  have hkept {n : ℕ} {y : Native} (hn : s.natives n = some y) : t.natives n = some y := by
    rw [hnatives, Function.update_of_ne (h.fresh hn).ne, hn]
  refine ⟨?_, ?_, ?_, ?_, ?_⟩
  · intro n hn
    rw [hconns, value_make] at hn
    split_ifs at hn with heq
    · exact ⟨x, by rw [hnatives, heq, Function.update_self], hx⟩
    · obtain ⟨y, hy, hactive⟩ := h.active hn
      exact ⟨y, hkept hy, hactive⟩
  · intro p d hp
    rw [hdeleting] at hp
    obtain ⟨y, hy, _⟩ := h.phase hp
    rw [hconns, value_make, if_neg (h.fresh hy).ne]
    exact h.gone hp
  · intro p d hp
    rw [hdeleting] at hp
    obtain ⟨y, hy, hphase⟩ := h.phase hp
    exact ⟨y, hkept hy, hphase⟩
  · intro p q d e hp hq
    rw [hdeleting] at hp hq
    exact h.unique hp hq
  · intro n y hn
    rw [hnatives] at hn
    rw [hfresh]
    rcases of_update_eq_some hn with ⟨rfl, _⟩ | ⟨_, hn⟩
    · exact Nat.lt_succ_self _
    · exact Nat.lt_succ_of_lt (h.fresh hn)

/-- A deletion goes on. -/
theorem proceed (h : Deletions s) {p : Holder} {d d' : Deleting} {x : Native}
    (hd : s.deleting p = some d) (hconns : t.conns = s.conns)
    (hdeleting : t.deleting = Function.update s.deleting p (some d'))
    (hnatives : t.natives = Function.update s.natives d.native (some x))
    (hfresh : t.fresh = s.fresh) (hnative : d'.native = d.native) (hx : x.phase = d'.phase) :
    Deletions t := by
  have hold {q : Holder} {e : Deleting} (hq : t.deleting q = some e) :
      (q = p ∧ e = d') ∨ (s.deleting q = some e ∧ e.native ≠ d.native) := by
    rw [hdeleting] at hq
    rcases of_update_eq_some hq with hnew | ⟨hne, hq⟩
    · exact .inl hnew
    · exact .inr ⟨hq, fun heq => hne (h.unique hq hd heq)⟩
  refine ⟨?_, ?_, ?_, ?_, ?_⟩
  · intro n hn
    rw [hconns] at hn
    have hne : n ≠ d.native := by
      intro heq
      rw [heq] at hn
      exact hn (h.gone hd)
    rw [hnatives, Function.update_of_ne hne]
    exact h.active hn
  · intro q e hq
    rw [hconns]
    rcases hold hq with ⟨_, rfl⟩ | ⟨hq, _⟩
    · rw [hnative]
      exact h.gone hd
    · exact h.gone hq
  · intro q e hq
    rcases hold hq with ⟨_, rfl⟩ | ⟨hq, hne⟩
    · exact ⟨x, by rw [hnatives, hnative, Function.update_self], hx⟩
    · rw [hnatives, Function.update_of_ne hne]
      exact h.phase hq
  · intro q q' e e' hq hq' heq
    rcases hold hq with ⟨hqp, he⟩ | ⟨hs, hne⟩ <;> rcases hold hq' with ⟨hqp', he'⟩ | ⟨hs', hne'⟩
    · exact hqp.trans hqp'.symm
    · rw [he, hnative] at heq
      exact (hne' heq.symm).elim
    · rw [he', hnative] at heq
      exact (hne heq).elim
    · exact h.unique hs hs' heq
  · intro n y hn
    rw [hnatives] at hn
    rw [hfresh]
    rcases of_update_eq_some hn with ⟨rfl, _⟩ | ⟨_, hn⟩
    · obtain ⟨z, hz, _⟩ := h.phase hd
      exact h.fresh hz
    · exact h.fresh hn

/-- A deletion is over. -/
theorem finish (h : Deletions s) {p : Holder} (hconns : t.conns = s.conns)
    (hdeleting : t.deleting = Function.update s.deleting p none)
    (hnatives : t.natives = s.natives) (hfresh : t.fresh = s.fresh) : Deletions t := by
  have hold {q : Holder} {e : Deleting} (hq : t.deleting q = some e) : s.deleting q = some e := by
    rw [hdeleting, Function.update_apply] at hq
    split_ifs at hq
    exact hq
  refine ⟨?_, ?_, ?_, ?_, ?_⟩
  · rw [hconns, hnatives]
    exact h.active
  · intro q e hq
    rw [hconns]
    exact h.gone (hold hq)
  · intro q e hq
    rw [hnatives]
    exact h.phase (hold hq)
  · intro q q' e e' hq hq' heq
    exact h.unique (hold hq) (hold hq') heq
  · rw [hnatives, hfresh]
    exact h.fresh

end Deletions

/-- What every run keeps about the holders of native connections. -/
structure Holding (s : State) : Prop where
  consistent : Consistent s.objects
  members : Members Holder.object s.conn s.conns
  requests : ∀ {r n}, Holder.request r ∈ s.conns.owners n ↔ s.requests r = some n
  deletions : Deletions s

theorem object_injective : Function.Injective Holder.object := fun _ _ => Holder.object.inj

namespace Holding

variable {s t : State}

theorem lt_fresh (h : Holding s) {n : ℕ} (hn : s.conns.value n ≠ none) : n < s.fresh := by
  obtain ⟨x, hx, _⟩ := h.deletions.active hn
  exact h.deletions.fresh hx

theorem value_fresh (h : Holding s) : s.conns.value s.fresh = none := by
  by_contra hne
  exact lt_irrefl _ (h.lt_fresh hne)

theorem value_of_conn (h : Holding s) {o n : ℕ} {x : Object} (ho : s.objects o = some x)
    (hx : x.conn = some n) : s.conns.value n ≠ none :=
  value_ne_none_of_owner _ (h.members.owner_iff.mpr ((member_of_some ho).trans hx))

/-- Copies of `conn_` do not change hands. -/
theorem frame (h : Holding s) (hconsistent : Consistent t.objects) (hdeletions : Deletions t)
    (hconn : t.conn = s.conn) (hconns : t.conns = s.conns) (hrequests : t.requests = s.requests) :
    Holding t where
  consistent := hconsistent
  members := by
    rw [hconn, hconns]
    exact h.members
  requests := by
    rw [hconns, hrequests]
    exact h.requests
  deletions := hdeletions

/-- Copies of `conn_` change hands among connection objects. -/
theorem ofObjects (h : Holding s) (hconsistent : Consistent t.objects) (hdeletions : Deletions t)
    (hmembers : Members Holder.object t.conn t.conns)
    (howners : ∀ r n, Holder.request r ∈ t.conns.owners n ↔ Holder.request r ∈ s.conns.owners n)
    (hrequests : t.requests = s.requests) : Holding t where
  consistent := hconsistent
  members := hmembers
  requests {r n} := by
    rw [howners, hrequests]
    exact h.requests
  deletions := hdeletions

theorem requestAsync (h : Holding s) {o r n : ℕ} {x : Object} (ho : s.objects o = some x)
    (hconn : x.conn = some n) (hr : s.requests r = none) : Holding { s with
      conns := s.conns.share n (.request r)
      requests := Function.update s.requests r (some n) } where
  consistent := h.consistent
  members := by
    refine h.members.of_owner_iff fun o' j => ?_
    rw [owners_share]
    split_ifs
    · simp
    · exact Iff.rfl
  requests {r' m} := by
    have hvalue := h.value_of_conn ho hconn
    simp only [owners_share, Function.update_apply]
    by_cases hm : m = n
    · subst m
      by_cases hr' : r' = r
      · simp [hr', hvalue]
      · simp [hr', hvalue, h.requests]
    · by_cases hr' : r' = r
      · subst r'
        simp [hm, Ne.symm hm, h.requests, hr]
      · simp [hm, hr', h.requests]
  deletions := h.deletions.frame (value_share _ _ · _) rfl rfl le_rfl

theorem endRequest (h : Holding s) {r n : ℕ} (hr : s.requests r = some n) : Holding ({ s with
      requests := Function.update s.requests r none }.dropConn (.request r) (some n)) where
  consistent := h.consistent
  members := by
    refine h.members.of_owner_iff fun o' j => ?_
    rw [State.dropConn_conns, mem_owners_reset]
    simp
  requests {r' m} := by
    simp only [State.dropConn_conns, State.dropConn_requests, mem_owners_reset, h.requests,
      Function.update_apply]
    split_ifs with hr'
    · subst r'
      simp [hr]
    · simp [hr']
  deletions := by
    have hvalue : s.conns.value n ≠ none := value_ne_none_of_owner _ (h.requests.mpr hr)
    apply Deletions.dropConn
    · exact h.deletions.frame (fun _ => rfl) rfl rfl le_rfl
    · intro m hm
      rwa [← Option.some.inj hm]

theorem resetConn (h : Holding s) {o k : ℕ} {engaged : Finset Kind} {x : Object}
    (ho : s.objects o = some x) (hconsistent : Consistent (resetConn s o x k engaged).objects) :
    Holding (resetConn s o x k engaged) := by
  have hfree := h.value_fresh
  refine h.ofObjects hconsistent ?_ ?_ ?_ (State.dropConn_requests _ _ _)
  · apply Deletions.dropConn
    · exact h.deletions.make rfl rfl rfl rfl rfl
    · intro n hn
      have hvalue := h.value_of_conn ho hn
      simp only [State.setObject_conns, value_make]
      split_ifs
      · simp
      · exact hvalue
  · have hnew : ∀ o', s.conn o' ≠ some s.fresh := fun o' ho' =>
      value_ne_none_of_owner _ (h.members.owner_iff.mpr ho') hfree
    have howners : ∀ o' j, Holder.object o' ∈ (s.conns.make s.fresh () (.object o)).owners j ↔
        Holder.object o' ∈ s.conns.owners j ∨ (o' = o ∧ j = s.fresh) := by
      intro o' j
      rw [owners_make]
      split_ifs with hj
      · rw [hj, (value_eq_none_iff _ _).mp hfree]
        simp
      · simp [hj]
    have hput := h.members.replace object_injective hnew howners
    rw [State.conn, member_of_some ho] at hput
    rw [State.conn, Connection.resetConn, State.dropConn_objects, State.dropConn_conns,
      State.setObject_objects, member_update]
    exact hput
  · intro r n
    rw [Connection.resetConn, State.dropConn_conns, mem_owners_reset]
    simp only [State.setObject_conns, owners_make]
    split_ifs with hn
    · rw [hn, (value_eq_none_iff _ _).mp hfree]
      simp
    · simp

theorem assignConn (h : Holding s) {o src : ℕ} {x y : Object} (ho : s.objects o = some x)
    (hsrc : s.objects src = some y) (hne : o ≠ src)
    (hconsistent : Consistent (assignConn s o src x y).objects) :
    Holding (assignConn s o src x y) := by
  have hobject : Holder.object o ≠ .object src := object_injective.ne hne
  refine h.ofObjects hconsistent ?_ ?_ ?_ (State.dropConn_requests _ _ _)
  · apply Deletions.dropConn
    · exact h.deletions.frame (fun n => value_move _ _ n hobject) rfl rfl le_rfl
    · intro n hn
      have hvalue := h.value_of_conn ho hn
      simp only [State.setObject_conns]
      rwa [value_move _ _ _ hobject]
  · have hmoved := h.members.assign object_injective hne
    rw [State.conn, member_of_some hsrc, member_of_some ho] at hmoved
    rw [State.conn, Connection.assignConn, State.dropConn_objects, State.dropConn_conns,
      State.setObject_objects, State.setObject_objects, member_update, member_update]
    exact hmoved
  · intro r n
    rw [Connection.assignConn, State.dropConn_conns, mem_owners_reset]
    simp only [State.setObject_conns, mem_owners_move _ _ _ hobject]
    simp

theorem dropConnMember (h : Holding s) {o : ℕ} {x : Object} (ho : s.objects o = some x)
    (hconsistent : Consistent (dropConnMember s o x).objects) : Holding (dropConnMember s o x) := by
  refine h.ofObjects hconsistent ?_ ?_ ?_ (State.dropConn_requests _ _ _)
  · apply Deletions.dropConn
    · exact h.deletions.frame (fun _ => rfl) rfl rfl le_rfl
    · exact fun n hn => h.value_of_conn ho hn
  · have hreset := h.members.reset object_injective o
    rw [State.conn, member_of_some ho] at hreset
    rw [State.conn, Connection.dropConnMember, State.dropConn_objects, State.dropConn_conns,
      State.setObject_objects, member_update]
    exact hreset
  · intro r n
    rw [Connection.dropConnMember, State.dropConn_conns, mem_owners_reset]
    simp

theorem moveMembers (h : Holding s) {o src : ℕ} {y : Object} (ho : s.objects o = none)
    (hsrc : s.objects src = some y) (hconsistent : Consistent (moveMembers s o src y).objects) :
    Holding (moveMembers s o src y) := by
  have hne : o ≠ src := by
    rintro rfl
    rw [ho] at hsrc
    contradiction
  have hobject : Holder.object o ≠ .object src := object_injective.ne hne
  refine h.ofObjects hconsistent ?_ ?_ ?_ rfl
  · exact h.deletions.frame (fun n => value_move _ _ n hobject) rfl rfl le_rfl
  · have hmoved := h.members.assign object_injective hne
    rw [State.conn, member_of_some hsrc, member_of_none ho] at hmoved
    rw [State.conn, Connection.moveMembers, State.setObject_objects, State.setObject_objects,
      member_update, member_update]
    exact hmoved
  · intro r n
    simp only [Connection.moveMembers, State.setObject_conns, mem_owners_move _ _ _ hobject]
    simp

theorem step {a : Action} (h : Holding s) (ht : Fires s a t) : Holding t := by
  have hconsistent := h.consistent.step ht
  have hsame {o : ℕ} {x x' : Object} (ho : s.objects o = some x) (hx : x'.conn = x.conn) :
      member (·.conn) (Function.update s.objects o (some x')) = s.conn := member_update_same ho hx
  have hsame₂ {o src : ℕ} {x y x' y' : Object} (ho : s.objects o = some x)
      (hsrc : s.objects src = some y) (hx : x'.conn = x.conn) (hy : y'.conn = y.conn)
      (hne : o ≠ src) :
      member (·.conn) (Function.update (Function.update s.objects o (some x')) src (some y')) =
        s.conn :=
    member_updateTwo_same ho hsrc hne hx hy
  have hkept {t : State} (hconns : t.conns = s.conns) (hdeleting : t.deleting = s.deleting)
      (hnatives : t.natives = s.natives) (hfresh : s.fresh ≤ t.fresh) : Deletions t :=
    h.deletions.frame (fun n => by rw [hconns]) hdeleting hnatives hfresh
  have hnull {o : ℕ} (ho : s.conn o = none) {x : Option Object} (hx : x.bind (·.conn) = none) :
      member (·.conn) (Function.update s.objects o x) = s.conn := by
    rw [member_update, hx, ← ho, Function.update_eq_self]
  cases ht with
  | construct ho =>
    exact h.frame hconsistent (hkept rfl rfl rfl (Nat.le_succ _)) (hnull (member_of_none ho) rfl) rfl
      rfl
  | moveConstruct ho hsrc hy => exact h.moveMembers ho hsrc hconsistent
  | connect ho =>
    exact h.frame hconsistent (hkept rfl rfl rfl (Nat.le_succ _)) (hsame ho rfl) rfl rfl
  | destroy ho | connectThrow hd ho | setHandlers hd ho | dropHandlers hd ho | dropState hd ho =>
    exact h.frame hconsistent (hkept rfl rfl rfl le_rfl) (hsame ho rfl) rfl rfl
  | moveAssignSelf => exact h
  | moveAssign ho hsrc hx hy hne =>
    exact h.frame hconsistent (hkept rfl rfl rfl le_rfl) (hsame₂ ho hsrc rfl rfl hne) rfl rfl
  | requestAsync ho hconn hr hd => exact h.requestAsync ho hconn hr
  | endRequest hr => exact h.endRequest hr
  | subscribe | destroySub | releaseSub | post | dispatch =>
    exact h.frame hconsistent (hkept rfl rfl rfl le_rfl) rfl rfl rfl
  | @callDestroy p _ n x hd hn =>
    exact h.frame hconsistent (h.deletions.proceed hd rfl rfl rfl rfl rfl rfl) rfl rfl rfl
  | @returnDestroy p _ n x hd hn =>
    exact h.frame hconsistent (h.deletions.proceed hd rfl rfl rfl rfl rfl rfl) rfl rfl rfl
  | freeDeleter hd hn =>
    exact h.frame hconsistent (h.deletions.finish rfl rfl rfl rfl) rfl rfl rfl
  | resetConn hd ho => exact h.resetConn ho hconsistent
  | assignConn hd ho hpc hsrc =>
    exact h.assignConn ho hsrc ((h.consistent _ _ ho).ne (.inl hpc)) hconsistent
  | assignState hd ho hpc hsrc =>
    have hne := (h.consistent _ _ ho).ne (.inr (.inl hpc))
    exact h.frame hconsistent (hkept rfl rfl rfl le_rfl) (hsame₂ ho hsrc rfl rfl hne) rfl rfl
  | assignHandlers hd ho hpc hsrc =>
    have hne := (h.consistent _ _ ho).ne (.inr (.inr hpc))
    exact h.frame hconsistent (hkept rfl rfl rfl le_rfl) (hsame₂ ho hsrc rfl rfl hne) rfl rfl
  | dropConn hd ho => exact h.dropConnMember ho hconsistent
  | @ending o _ x hd ho hpc =>
    have hx : x.callbackHandlers = none ∧ x.callbackState = none ∧ x.conn = none := by
      simpa [Object.Consistent, hpc] using h.consistent o x ho
    exact h.frame hconsistent (hkept rfl rfl rfl le_rfl)
      (hnull ((member_of_some ho).trans hx.2.2) rfl) rfl rfl

end Holding

theorem holding_invariant : machine.Invariant Machine.Free Holding := by
  constructor
  · refine ⟨?_, ⟨?_, ?_⟩, ?_, ⟨?_, ?_, ?_, ?_, ?_⟩⟩ <;>
      simp [machine, initial, Consistent, member, owners, value]
  · intro s a t h _ ht
    exact h.step (fires_of_step ht)

end NatsCpp.Connection
