import NatsCpp.ConnectCall

/-!
# Connection events and the functions that they call

Each setter of an event callback gets one of six bridge functions, and the
`callback_handlers` object of the call of `connect` as closure. A dispatched
event runs its bridge function on that object. The machine of the connection
objects is run here with the contents of the handlers objects, and with the
options that each native connection has been made with.
-/
namespace NatsCpp.Connect
open Connection (Kind Event)

/-! ## The bridge functions

Each calls one of the functions, if it is not empty, and catches what it throws.
-/

def closedCbBridge (handlers : CallbackHandlers) : Option ℕ := handlers.closedCb

def disconnectedCbBridge (handlers : CallbackHandlers) : Option ℕ := handlers.disconnectedCb

def reconnectedCbBridge (handlers : CallbackHandlers) : Option ℕ := handlers.reconnectedCb

def errorHandlerBridge (handlers : CallbackHandlers) : Option ℕ := handlers.errorHandler

def lameDuckModeCbBridge (handlers : CallbackHandlers) : Option ℕ := handlers.lameDuckModeCb

def discoveredServersCbBridge (handlers : CallbackHandlers) : Option ℕ :=
  handlers.discoveredServersCb

/-- The bridge function that `apply_nats_options` passes to the setter. -/
def bridge : Kind → CallbackHandlers → Option ℕ
  | .closed => closedCbBridge
  | .disconnected => disconnectedCbBridge
  | .reconnected => reconnectedCbBridge
  | .error => errorHandlerBridge
  | .lameDuckMode => lameDuckModeCbBridge
  | .discoveredServers => discoveredServersCbBridge

theorem bridge_eq (kind : Kind) (handlers : CallbackHandlers) :
    bridge kind handlers = handlers.callback kind := by
  cases kind <;> rfl

/-! ## The machine -/

/-- The callbacks among some settings that have a handlers object as closure. -/
def installed (xs : List Setting) (closure : ℕ) : Finset Kind :=
  ({.closed, .disconnected, .reconnected, .error, .lameDuckMode, .discoveredServers} :
    Finset Kind).filter fun kind => .setCallback kind closure ∈ xs

namespace Dispatch

structure State where
  shared : Connection.State
  /-- The contents of the `callback_handlers` objects. -/
  copied : ℕ → Option CallbackHandlers
  /-- The options of the last call of `connect` on an object. -/
  given : ℕ → Option ConnectionOptions
  /-- The options that a native connection has been made with. -/
  made : ℕ → Option ConnectionOptions
  /-- The functions that events have called. -/
  called : List (Event × ℕ)

inductive Action where
  | connect (o : ℕ) (options : ConnectionOptions)
  | base (a : Connection.Action)

/-- The object for which an action puts a new native connection into `conn_`. -/
def connecting (s : Connection.State) : Connection.Action → Option ℕ
  | .advance (.object o) true =>
    if s.deleting (.object o) = none then
      (s.objects o).bind fun x =>
        match x.pc with
        | .connecting .. => some o
        | _ => none
    else none
  | _ => none

/-- The function that an action calls; if the handlers are gone this is undefined. -/
def calls (s : State) : Connection.Action → Option (Event × ℕ)
  | .dispatch e =>
    if s.shared.handlers.value e.handlers = none then none
    else ((s.copied e.handlers).bind (bridge e.kind)).map fun f => (e, f)
  | _ => none

def step (tls : Bool) (s : State) : Action → Option State
  | .connect o options =>
    let h := s.shared.fresh
    let engaged := installed (settings (script tls options h)) h
    (Connection.step s.shared (.connect o engaged)).map fun shared => { s with
      shared := shared
      copied := Function.update s.copied h (some options.handlers)
      given := Function.update s.given o (some options) }
  | .base (.connect ..) => none
  | .base a => (Connection.step s.shared a).map fun shared => { s with
      shared := shared
      made :=
        match connecting s.shared a with
        | some o => Function.update s.made s.shared.fresh (s.given o)
        | none => s.made
      called := s.called ++ (calls s a).toList }

def machine (tls : Bool) : Machine State Action :=
  ⟨⟨Connection.initial, fun _ => none, fun _ => none, fun _ => none, []⟩, step tls⟩

/-! ## What the steps of the connection machine change -/

section Base

variable {s t : Connection.State} {a : Connection.Action}

theorem fresh_le (ht : Connection.Fires s a t) : s.fresh ≤ t.fresh := by
  cases ht <;>
    simp [Connection.defaultConstruct, Connection.moveMembers, Connection.makeHandlers,
      Connection.resetConn, Connection.connectThrow, Connection.setHandlers, Connection.assignConn,
      Connection.assignState, Connection.assignHandlers, Connection.dropHandlers,
      Connection.dropState, Connection.dropConnMember, Connection.callDestroy,
      Connection.returnDestroy, Connection.freeDeleter]

/-- No object comes to the native call of `connect`. -/
def KeepsConnecting (f g : ℕ → Option Connection.Object) : Prop :=
  ∀ o x h e, g o = some x → x.pc = .connecting h e → ∃ y, f o = some y ∧ y.pc = .connecting h e

theorem KeepsConnecting.refl (f : ℕ → Option Connection.Object) : KeepsConnecting f f :=
  fun _ x _ _ hx hpc => ⟨x, hx, hpc⟩

theorem KeepsConnecting.update {f g : ℕ → Option Connection.Object} (h : KeepsConnecting f g)
    {i : ℕ} {y : Option Connection.Object}
    (hy : ∀ z, y = some z → (∀ k e, z.pc ≠ .connecting k e) ∨ ∃ z', f i = some z' ∧ z'.pc = z.pc) :
    KeepsConnecting f (Function.update g i y) := by
  intro o x k e ho hpc
  rw [Function.update_apply] at ho
  split_ifs at ho with heq
  · subst heq
    obtain hne | ⟨z, hz, hsame⟩ := hy x ho
    · exact absurd hpc (hne k e)
    · exact ⟨z, hz, hsame.trans hpc⟩
  · exact h o x k e ho hpc

/-- Only a call of `connect` brings an object to the native call. -/
theorem connecting_of_fires (ht : Connection.Fires s a t) (ha : ∀ o e, a ≠ .connect o e) :
    KeepsConnecting s.objects t.objects := by
  have hrefl := KeepsConnecting.refl s.objects
  have hnew {o : ℕ} {f : ℕ → Option Connection.Object} {x : Connection.Object}
      (h : KeepsConnecting s.objects f) (hx : ∀ k e, x.pc ≠ .connecting k e) :
      KeepsConnecting s.objects (Function.update f o (some x)) :=
    h.update fun z hz => .inl (Option.some.inj hz ▸ hx)
  have hsame {o : ℕ} {f : ℕ → Option Connection.Object} {x y : Connection.Object}
      (h : KeepsConnecting s.objects f) (hy : s.objects o = some y) (hx : y.pc = x.pc) :
      KeepsConnecting s.objects (Function.update f o (some x)) :=
    h.update fun z hz => .inr ⟨y, hy, hx.trans (congrArg _ (Option.some.inj hz))⟩
  cases ht with
  | connect => exact absurd rfl (ha _ _)
  | construct | destroy | setHandlers | dropHandlers | dropState | connectThrow =>
    exact hnew hrefl (by simp)
  | moveConstruct ho hsrc hy =>
    have hidle (k : ℕ) (e : Finset Kind) : Connection.Pc.idle ≠ .connecting k e := by simp
    exact hnew (hnew hrefl (hy.1 ▸ hidle)) (hy.1 ▸ hidle)
  | moveAssign ho hsrc hx hy hne => exact hsame (hnew hrefl (by simp)) hsrc rfl
  | resetConn =>
    rw [Connection.resetConn, Connection.State.dropConn_objects]
    exact hnew hrefl (by simp)
  | dropConn =>
    rw [Connection.dropConnMember, Connection.State.dropConn_objects]
    exact hnew hrefl (by simp)
  | assignConn hd ho hpc hsrc =>
    rw [Connection.assignConn, Connection.State.dropConn_objects]
    exact hsame (hnew hrefl (by simp)) hsrc rfl
  | assignState hd ho hpc hsrc | assignHandlers hd ho hpc hsrc =>
    exact hsame (hnew hrefl (by simp)) hsrc rfl
  | ending => exact hrefl.update (by simp)
  | _ => exact hrefl

/-- A native connection is made for an object that was at the native call, and keeps what it was
made with. -/
theorem native_of_fires (ht : Connection.Fires s a t) {n : ℕ} {x : Connection.Native}
    (hn : t.natives n = some x) :
    (∃ y, s.natives n = some y ∧ y.handlers = x.handlers ∧ y.engaged = x.engaged) ∨
      (n = s.fresh ∧ n < t.fresh ∧ ∃ o y, connecting s a = some o ∧ s.objects o = some y ∧
        y.pc = .connecting x.handlers x.engaged) := by
  have hphase {m : ℕ} {y : Connection.Native} {phase : Connection.Phase}
      (hm : s.natives m = some y)
      (h : Function.update s.natives m (some { y with phase := phase }) n = some x) :
      ∃ y, s.natives n = some y ∧ y.handlers = x.handlers ∧ y.engaged = x.engaged := by
    obtain ⟨rfl, rfl⟩ | ⟨-, hold⟩ := Connection.of_update_eq_some h
    · exact ⟨y, hm, rfl, rfl⟩
    · exact ⟨x, hold, rfl, rfl⟩
  cases ht with
  | callDestroy hd hm | returnDestroy hd hm => exact .inl (hphase hm hn)
  | @resetConn o h e y hd ho hpc =>
    rw [Connection.resetConn, Connection.State.dropConn_natives] at hn
    obtain ⟨rfl, rfl⟩ | ⟨-, hold⟩ := Connection.of_update_eq_some hn
    · have hfresh : s.fresh < (Connection.resetConn s o y h e).fresh := by
        rw [Connection.resetConn, Connection.State.dropConn_fresh]
        exact Nat.lt_succ_self _
      exact .inr ⟨rfl, hfresh, _, _, by simp [connecting, hd, ho, hpc], ho, hpc⟩
    · exact .inl ⟨x, hold, rfl, rfl⟩
  | assignConn =>
    rw [Connection.assignConn, Connection.State.dropConn_natives] at hn
    exact .inl ⟨x, hn, rfl, rfl⟩
  | dropConn =>
    rw [Connection.dropConnMember, Connection.State.dropConn_natives] at hn
    exact .inl ⟨x, hn, rfl, rfl⟩
  | _ => exact .inl ⟨x, hn, rfl, rfl⟩

theorem native_kept (ht : Connection.Fires s a t) {n : ℕ} {x : Connection.Native}
    (hn : s.natives n = some x) (hlt : n < s.fresh) :
    ∃ y, t.natives n = some y ∧ y.handlers = x.handlers ∧ y.engaged = x.engaged := by
  have hphase {m : ℕ} {y : Connection.Native} {phase : Connection.Phase}
      (hm : s.natives m = some y) :
      ∃ z, Function.update s.natives m (some { y with phase := phase }) n = some z ∧
        z.handlers = x.handlers ∧ z.engaged = x.engaged := by
    obtain rfl | hne := eq_or_ne n m
    · obtain rfl := Option.some.inj (hm.symm.trans hn)
      exact ⟨_, Function.update_self .., rfl, rfl⟩
    · exact ⟨x, (Function.update_of_ne hne ..).trans hn, rfl, rfl⟩
  cases ht with
  | callDestroy hd hm | returnDestroy hd hm => exact hphase hm
  | resetConn =>
    rw [Connection.resetConn, Connection.State.dropConn_natives]
    exact ⟨x, (Function.update_of_ne hlt.ne ..).trans hn, rfl, rfl⟩
  | assignConn =>
    rw [Connection.assignConn, Connection.State.dropConn_natives]
    exact ⟨x, hn, rfl, rfl⟩
  | dropConn =>
    rw [Connection.dropConnMember, Connection.State.dropConn_natives]
    exact ⟨x, hn, rfl, rfl⟩
  | _ => exact ⟨x, hn, rfl, rfl⟩

theorem event_of_fires (ht : Connection.Fires s a t) {e : Event} (he : e ∈ t.events) :
    e ∈ s.events ∨ ∃ n x, s.natives n = some x ∧ x.handlers = e.handlers ∧ e.kind ∈ x.engaged := by
  cases ht with
  | @post n kind x hn hkind hphase =>
    obtain rfl | he := List.mem_cons.mp he
    · exact .inr ⟨n, x, hn, rfl, hkind⟩
    · exact .inl he
  | dispatch => exact .inl (List.mem_of_mem_erase he)
  | resetConn =>
    rw [Connection.resetConn, Connection.State.dropConn_events] at he
    exact .inl he
  | assignConn =>
    rw [Connection.assignConn, Connection.State.dropConn_events] at he
    exact .inl he
  | dropConn =>
    rw [Connection.dropConnMember, Connection.State.dropConn_events] at he
    exact .inl he
  | _ => exact .inl he

end Base

/-! ## Every event calls the function of its own options -/

/-- The callbacks with a handlers object as closure are engaged in the options it was copied
from. -/
structure Fits (s : State) (closure : ℕ) (engaged : Finset Kind) (options : ConnectionOptions) :
    Prop where
  lt_fresh : closure < s.shared.fresh
  copied : s.copied closure = some options.handlers
  engaged : ∀ kind ∈ engaged, (options.handlers.callback kind).isSome

structure Wired (s : State) : Prop where
  connecting : ∀ o x h e, s.shared.objects o = some x → x.pc = .connecting h e →
    ∃ options, s.given o = some options ∧ Fits s h e options
  native : ∀ n x, s.shared.natives n = some x → n < s.shared.fresh ∧
    ∃ options, s.made n = some options ∧ Fits s x.handlers x.engaged options
  event : ∀ e ∈ s.shared.events, ∃ n x, s.shared.natives n = some x ∧ x.handlers = e.handlers ∧
    e.kind ∈ x.engaged
  called : ∀ p ∈ s.called, ∃ n x c, s.shared.natives n = some x ∧ x.handlers = p.1.handlers ∧
    s.copied p.1.handlers = some c ∧ c.callback p.1.kind = some p.2

section Steps

variable {tls : Bool} {s t : State}

theorem mem_installed {options : ConnectionOptions} {h : ℕ} {kind : Kind}
    (hkind : kind ∈ installed (settings (script tls options h)) h) :
    (options.handlers.callback kind).isSome := by
  have hmem := ok_mem_of_mem_settings (Finset.mem_filter.mp hkind).2
  rw [ok_mem_script_iff] at hmem
  exact hmem.1

/-- Steps that only add handlers objects, and keep those that are there. -/
theorem Fits.mono {h : ℕ} {e : Finset Kind} {options : ConnectionOptions} (hfits : Fits s h e options)
    (hfresh : s.shared.fresh ≤ t.shared.fresh)
    (hcopied : ∀ k < s.shared.fresh, t.copied k = s.copied k) : Fits t h e options :=
  ⟨Nat.lt_of_lt_of_le hfits.lt_fresh hfresh, (hcopied h hfits.lt_fresh).trans hfits.copied,
    hfits.engaged⟩

/-- A call of `connect` comes to the native call. -/
theorem connect_of_step {o : ℕ} {options : ConnectionOptions}
    (ht : step tls s (.connect o options) = some t) : ∃ x,
      t.shared = Connection.makeHandlers s.shared o x
        (installed (settings (script tls options s.shared.fresh)) s.shared.fresh) ∧
      t.copied = Function.update s.copied s.shared.fresh (some options.handlers) ∧
      t.given = Function.update s.given o (some options) ∧ t.made = s.made ∧
      t.called = s.called := by
  obtain ⟨shared, hshared, rfl⟩ := Option.map_eq_some_iff.mp ht
  cases Connection.fires_of_step hshared with
  | @connect o engaged x ho hx => exact ⟨x, rfl, rfl, rfl, rfl, rfl⟩

theorem Wired.connect {o : ℕ} {options : ConnectionOptions} (h : Wired s)
    (ht : step tls s (.connect o options) = some t) : Wired t := by
  obtain ⟨x, hshared, hcopied, hgiven, hmade, hcalled⟩ := connect_of_step ht
  have hfresh : t.shared.fresh = s.shared.fresh + 1 := by rw [hshared]; rfl
  have hnatives : t.shared.natives = s.shared.natives := by rw [hshared]; rfl
  have hkept (k : ℕ) (hk : k < s.shared.fresh) : t.copied k = s.copied k := by
    rw [hcopied, Function.update_of_ne hk.ne]
  have hfits {k : ℕ} {e : Finset Kind} {options' : ConnectionOptions} (hf : Fits s k e options') :
      Fits t k e options' := hf.mono (by omega) hkept
  refine ⟨fun o' y k e ho' hpc => ?_, fun n y hn => ?_, fun e he => ?_, fun p hp => ?_⟩
  · rw [hshared] at ho'
    obtain ⟨rfl, rfl⟩ | ⟨hne, hold⟩ := Connection.of_update_eq_some ho'
    · obtain ⟨rfl, rfl⟩ := Connection.Pc.connecting.inj hpc
      refine ⟨options, by rw [hgiven, Function.update_self], by omega, ?_,
        fun kind hkind => mem_installed hkind⟩
      rw [hcopied, Function.update_self]
    · obtain ⟨options', hold, hf⟩ := h.connecting o' y k e hold hpc
      exact ⟨options', by rw [hgiven, Function.update_of_ne hne, hold], hfits hf⟩
  · obtain ⟨hlt, options', hoptions, hf⟩ := h.native n y (hnatives ▸ hn)
    exact ⟨by omega, options', by rw [hmade, hoptions], hfits hf⟩
  · rw [hshared] at he
    rw [hnatives]
    exact h.event e he
  · obtain ⟨n, y, c, hn, hclosure, hc, hcallback⟩ := h.called p (hcalled ▸ hp)
    obtain ⟨-, options', -, hf⟩ := h.native n y hn
    exact ⟨n, y, c, hnatives ▸ hn, hclosure, by rw [hkept _ (hclosure ▸ hf.lt_fresh), hc],
      hcallback⟩

/-- What a dispatched event calls. -/
theorem Wired.of_calls {a : Connection.Action} (h : Wired s) {u : Connection.State}
    (ht : Connection.Fires s.shared a u) {p : Event × ℕ} (hp : calls s a = some p) :
    ∃ n x c, s.shared.natives n = some x ∧ x.handlers = p.1.handlers ∧
      s.copied p.1.handlers = some c ∧ c.callback p.1.kind = some p.2 := by
  cases ht with
  | @dispatch e he =>
    obtain ⟨n, x, hn, hclosure, -⟩ := h.event e he
    simp only [calls] at hp
    split at hp
    · contradiction
    · obtain ⟨f, hf, rfl⟩ := Option.map_eq_some_iff.mp hp
      obtain ⟨c, hc, hbridge⟩ := Option.bind_eq_some_iff.mp hf
      rw [bridge_eq] at hbridge
      exact ⟨n, x, c, hn, hclosure, hc, hbridge⟩
  | _ => contradiction

/-- The steps of the connection machine, with what is noted of them. -/
theorem base_of_step {a : Connection.Action} (ht : step tls s (.base a) = some t) :
    (∀ o e, a ≠ .connect o e) ∧ Connection.Fires s.shared a t.shared ∧ t.copied = s.copied ∧
      t.given = s.given ∧ t.called = s.called ++ (calls s a).toList ∧
        t.made = match connecting s.shared a with
          | some o => Function.update s.made s.shared.fresh (s.given o)
          | none => s.made := by
  cases a with
  | connect => contradiction
  | _ =>
    obtain ⟨shared, hshared, rfl⟩ := Option.map_eq_some_iff.mp ht
    exact ⟨by simp, Connection.fires_of_step hshared, rfl, rfl, rfl, rfl⟩

theorem Wired.base {a : Connection.Action} (h : Wired s) (ht : step tls s (.base a) = some t) :
    Wired t := by
  obtain ⟨ha, hfires, hcopied, hgiven, hcalled, hmade⟩ := base_of_step ht
  have hfresh := fresh_le hfires
  have hfits {k : ℕ} {e : Finset Kind} {options : ConnectionOptions} (hf : Fits s k e options) :
      Fits t k e options := hf.mono hfresh fun k _ => congrFun hcopied k
  have hold {n : ℕ} (hlt : n < s.shared.fresh) : t.made n = s.made n := by
    rw [hmade]
    split
    · exact Function.update_of_ne hlt.ne ..
    · rfl
  refine ⟨fun o x k e ho hpc => ?_, fun n x hn => ?_, fun e he => ?_, fun p hp => ?_⟩
  · obtain ⟨y, hy, hsame⟩ := connecting_of_fires hfires ha o x k e ho hpc
    obtain ⟨options, hoptions, hf⟩ := h.connecting o y k e hy hsame
    exact ⟨options, by rw [hgiven, hoptions], hfits hf⟩
  · obtain ⟨y, hy, hclosure, hengaged⟩ | ⟨rfl, hlt, o, y, hconnecting, ho, hpc⟩ :=
      native_of_fires hfires hn
    · obtain ⟨hlt, options, hoptions, hf⟩ := h.native n y hy
      rw [hclosure, hengaged] at hf
      exact ⟨Nat.lt_of_lt_of_le hlt hfresh, options, by rw [hold hlt, hoptions], hfits hf⟩
    · obtain ⟨options, hoptions, hf⟩ := h.connecting o y _ _ ho hpc
      refine ⟨hlt, options, ?_, hfits hf⟩
      rw [hmade, hconnecting, ← hoptions]
      exact Function.update_self ..
  · have hkept {n : ℕ} {x : Connection.Native} (hn : s.shared.natives n = some x)
        (hclosure : x.handlers = e.handlers) (hkind : e.kind ∈ x.engaged) :
        ∃ n x, t.shared.natives n = some x ∧ x.handlers = e.handlers ∧ e.kind ∈ x.engaged := by
      obtain ⟨y, hy, hsame, hengaged⟩ := native_kept hfires hn (h.native n x hn).1
      exact ⟨n, y, hy, hsame.trans hclosure, hengaged ▸ hkind⟩
    obtain hqueued | ⟨n, x, hn, hclosure, hkind⟩ := event_of_fires hfires he
    · obtain ⟨n, x, hn, hclosure, hkind⟩ := h.event e hqueued
      exact hkept hn hclosure hkind
    · exact hkept hn hclosure hkind
  · have hp : p ∈ s.called ∨ calls s a = some p := by
      simpa [hcalled, Option.mem_toList] using hp
    obtain ⟨n, x, c, hn, hclosure, hc, hcallback⟩ :=
      hp.elim (fun hp => h.called p hp) fun hp => h.of_calls hfires hp
    obtain ⟨y, hy, hsame, -⟩ := native_kept hfires hn (h.native n x hn).1
    exact ⟨n, y, c, hy, hsame.trans hclosure, by rw [hcopied, hc], hcallback⟩

theorem wired_invariant (tls : Bool) : (machine tls).Invariant Machine.Free Wired where
  init := by
    refine ⟨fun o x h e ho => ?_, fun n x hn => ?_, by simp [machine, Connection.initial],
      by simp [machine]⟩
    · contradiction
    · contradiction
  step := by
    intro s a t h _ ht
    cases a with
    | connect => exact h.connect ht
    | base => exact h.base ht

/-- The events of a connection call functions of the options that it was made with: each one that
has been dispatched has called the function for its kind, and each one that is queued will. -/
theorem events_call_own_handlers (tls : Bool) (as : List Action) :
    (machine tls).Throughout (fun s =>
      (∀ e f, (e, f) ∈ s.called → (∃ n x, s.shared.natives n = some x ∧ x.handlers = e.handlers) ∧
        ∀ n x, s.shared.natives n = some x → x.handlers = e.handlers →
          ∃ options, s.made n = some options ∧ options.handlers.callback e.kind = some f) ∧
      ∀ e ∈ s.shared.events, s.shared.handlers.value e.handlers ≠ none →
        ∃ f, calls s (.dispatch e) = some (e, f)) (machine tls).init as := by
  refine ((wired_invariant tls).throughout (wired_invariant tls).init as).mono fun s h => ?_
  refine ⟨fun e f hcalled => ?_, fun e he halive => ?_⟩
  · obtain ⟨n, x, c, hn, hclosure, hc, hcallback⟩ := h.called _ hcalled
    refine ⟨⟨n, x, hn, hclosure⟩, fun m y hm hsame => ?_⟩
    obtain ⟨-, options, hmade, hf⟩ := h.native m y hm
    have hcontent : options.handlers = c :=
      Option.some.inj (hf.copied.symm.trans (hsame ▸ hc))
    exact ⟨options, hmade, hcontent ▸ hcallback⟩
  · obtain ⟨n, x, hn, hclosure, hkind⟩ := h.event e he
    obtain ⟨-, options, -, hf⟩ := h.native n x hn
    obtain ⟨f, hcallback⟩ := Option.isSome_iff_exists.mp (hf.engaged e.kind hkind)
    refine ⟨f, ?_⟩
    rw [calls, if_neg halive, ← hclosure, hf.copied, Option.bind_some, bridge_eq, hcallback]
    rfl

end Steps

end Dispatch

end NatsCpp.Connect
