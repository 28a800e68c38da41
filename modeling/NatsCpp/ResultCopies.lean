import NatsCpp.NativeResults
import Mathlib.Data.List.ReduceOption

/-!
# What the functions that copy a native result return and leave behind

Each of them returns the copy of what nats.c answered, and the memory is then
as it was before the call: whatever nats.c allocated has been freed once. That
also holds when it throws, whichever request for memory is refused.
-/
namespace NatsCpp.NativeResults
open Effect CMemory
open Handles (Failure)

/-! ## Shared parts -/

/-- The computation returns the value if the call is accepted. It owns no more afterwards than
before, and it throws only if the call is not accepted or memory is refused. -/
def Delivers {α : Type} (base : ℕ → Option Block) (rich : Prop) (ledger : List (ℕ × Block))
    (p : Effect (Memory Block) Failure α) (accepted : Prop) (value : α) : Prop :=
  Contract (Owned base rich ledger) p
    (fun a m => (accepted ∧ a = value) ∧ Owned base rich ledger m)
    fun m => Owned base rich ledger m ∧ ¬ rich

/-- The copy of a C string that a pointer leads to. -/
def textAt (base : ℕ → Option Block) (p : Option ℕ) : String :=
  ((p.bind base).bind Block.string?).getD ""

/-- The pointer is null, or it leads to a C string. -/
def IsString (base : ℕ → Option Block) (p : Option ℕ) : Prop :=
  ∀ a, p = some a → ∃ text, base a = some (.string text)

section Shared

variable {α : Type} {base : ℕ → Option Block} {rich accepted : Prop}
  {ledger : List (ℕ × Block)} {value : α} {p : Effect (Memory Block) Failure α}
  (texts : ErrorTexts Unit) {status : Status} (context : String) {a : ℕ} {b : Block}

theorem outcome_check_of_ne (h : status ≠ .ok) (m : Memory Block) :
    (check texts status context).outcome m =
      (.error (.error (nativeError texts status (some context) [])), m) := by
  have hthrow := outcome_throwOnError_of_ne texts status (some context) [] h
  show (Except.mapError Failure.error ((throwOnError texts status (some context)).outcome []).1, m) =
    _
  rw [hthrow]
  rfl

theorem outcome_check_ok (m : Memory Block) :
    (check texts .ok context).outcome m = (.ok (), m) :=
  rfl

namespace Delivers

theorem of_copies (h : Copies base rich ledger p value) (haccepted : accepted) :
    Delivers base rich ledger p accepted value :=
  h.weaken (fun _ hm => hm) (fun _ _ hm => ⟨⟨haccepted, hm.1⟩, hm.2⟩) fun _ hm => hm

/-- A status is checked before the rest. -/
theorem check {f : Unit → Effect (Memory Block) Failure α} (hrich : rich → status = .ok)
    (h : Delivers base rich ledger (f ()) accepted value) :
    Delivers base rich ledger (check texts status context >>= f)
      (status = .ok ∧ accepted) value := by
  intro m hm
  by_cases hok : status = .ok
  · subst hok
    rw [outcome_bind_of_ok _ _ _ (outcome_check_ok texts context m)]
    refine (h.weaken (fun _ hm => hm) ?_ fun _ hm => hm) m hm
    exact fun a t ht => ⟨⟨⟨rfl, ht.1.1⟩, ht.1.2⟩, ht.2⟩
  · rw [outcome_bind_of_error _ _ _ (outcome_check_of_ne texts context hok m)]
    exact ⟨hm, fun h => hok (hrich h)⟩

/-- A condition is checked before the rest. -/
theorem require {condition : Bool} {e : Error} {f : Unit → Effect (Memory Block) Failure α}
    (hrich : rich → condition = true) (h : Delivers base rich ledger (f ()) accepted value) :
    Delivers base rich ledger (require condition e >>= f) (condition = true ∧ accepted) value := by
  cases condition with
  | true =>
    refine h.weaken (fun _ hm => hm) ?_ fun _ hm => hm
    exact fun a m hm => ⟨⟨⟨rfl, hm.1.1⟩, hm.1.2⟩, hm.2⟩
  | false => exact fun m hm => ⟨hm, fun h => absurd (hrich h) (by simp)⟩

/-- A copy is made before the rest. -/
theorem andThen {δ : Type} {first : Effect (Memory Block) Failure δ} {given : δ}
    {f : δ → Effect (Memory Block) Failure α} (hfirst : Copies base rich ledger first given)
    (h : Delivers base rich ledger (f given) accepted value) :
    Delivers base rich ledger (first >>= f) accepted value :=
  hfirst.andThen h fun _ hm => hm

theorem weaken {accepted' : Prop} (h : Delivers base rich ledger p accepted value)
    (haccepted : accepted → accepted') : Delivers base rich ledger p accepted' value :=
  Contract.weaken h (fun _ hm => hm) (fun _ _ hm => ⟨⟨haccepted hm.1.1, hm.1.2⟩, hm.2⟩)
    fun _ hm => hm

/-- What the computation owned is destroyed when it is left, however it is left. -/
theorem guarded {destroy : Memory Block → Memory Block} {ledger' : List (ℕ × Block)}
    (h : Delivers base rich ledger p accepted value)
    (hdestroy : ∀ m, Owned base rich ledger m → Owned base rich ledger' (destroy m)) :
    Contract (Owned base rich ledger) (p.guarded destroy)
      (fun a m => (accepted ∧ a = value) ∧ Owned base rich ledger' m)
      fun m => Owned base rich ledger' m ∧ ¬ rich := by
  refine Contract.guarded (Contract.weaken h (fun _ hm => hm) ?_ ?_)
  · exact fun a m hm => ⟨hm.1, hdestroy m hm.2⟩
  · exact fun m hm => ⟨hdestroy m hm.1, hm.2⟩

/-- A call that starts and ends without blocks of its own. -/
theorem outcome {m : Memory Block}
    (h : Delivers m.content (accepted ∧ m.Generous) [] p accepted value)
    (hfault : m.fault = false) :
    (p.outcome m).2.fault = false ∧ (p.outcome m).2.content = m.content ∧
      (∀ v, (p.outcome m).1 = .ok v → accepted ∧ v = value) ∧
      (accepted → m.Generous → (p.outcome m).1 = .ok value) := by
  have howned : Owned m.content (accepted ∧ m.Generous) [] m := Owned.of_noFault hfault And.right
  have hmeets := h m howned
  generalize p.outcome m = r at hmeets
  obtain ⟨v, t⟩ := r
  cases v with
  | ok v =>
    obtain ⟨⟨haccepted, rfl⟩, ht⟩ := hmeets
    refine ⟨ht.noFault, ht.content_eq, ?_, fun _ _ => rfl⟩
    intro v hv
    exact ⟨haccepted, (Except.ok.inj hv).symm⟩
  | error e =>
    obtain ⟨ht, hrefused⟩ := hmeets
    refine ⟨ht.noFault, ht.content_eq, fun v hv => absurd hv (by simp), ?_⟩
    exact fun haccepted hgenerous => absurd ⟨haccepted, hgenerous⟩ hrefused

end Delivers

theorem outcome_receive_of_ne (h : status ≠ .ok) (object : Option Block) (m : Memory Block) :
    (receive status object).outcome m = (.ok none, m) := by
  rw [receive, outcome_act, if_neg h]

/-- A native function with a checked status, and what is done with the block that it made. -/
theorem contract_receive {object : Option Block}
    {f : Option ℕ → Effect (Memory Block) Failure α} {R : α → Memory Block → Prop}
    {E : Memory Block → Prop}
    (hnone : status = .ok → object = none → Contract (Owned base rich ledger) (f none) R E)
    (hsome : status = .ok → ∀ a b, object = some b →
      Contract (Owned base rich ((a, b) :: ledger)) (f (some a)) R E)
    (hE : status ≠ .ok → ∀ m, Owned base rich ledger m → E m) :
    Contract (Owned base rich ledger) (do
      let raw ← receive status object
      check texts status context
      f raw) R E := by
  intro m hm
  by_cases hok : status = .ok
  · subst hok
    cases object with
    | none => exact hnone rfl rfl m hm
    | some b => exact hsome rfl _ b rfl _ (hm.allocate b)
  · rw [outcome_bind_of_ok _ _ _ (outcome_receive_of_ne hok object m),
      outcome_bind_of_error _ _ _ (outcome_check_of_ne texts context hok m)]
    exact hE hok m hm

theorem delivers_withObject {object : Option Block} {null : Effect (Memory Block) Failure α}
    {copy : Option ℕ → Effect (Memory Block) Failure α} (hrich : rich → status = .ok)
    (hnull : object = none → Copies base rich ledger null value)
    (hcopy : ∀ a b, object = some b → Copies base rich ((a, b) :: ledger) (copy (some a)) value) :
    Delivers base rich ledger (withObject texts status context object null copy) (status = .ok)
      value := by
  refine contract_receive texts context ?_ ?_ fun hne m hm => ⟨hm, fun h => hne (hrich h)⟩
  · intro hok hobject
    rw [if_pos rfl]
    exact Delivers.of_copies (hnull hobject) hok
  · intro hok a b hobject
    rw [if_neg (Option.some_ne_none a)]
    exact (Delivers.of_copies (hcopy a b hobject) hok).guarded fun m hm => hm.free

theorem copies_copyMember {view : Block → Option (Option String)} {text : Option String}
    (hmem : (a, b) ∈ ledger) (hview : view b = some text) :
    Copies base rich ledger (copyMember view (some a)) (text.getD "") :=
  (Copies.load_owned hmem hview).bind ((Copies.request _).bind (Copies.pure _))

theorem copies_copyString_null : Copies base rich ledger (copyString none) "" :=
  (Copies.pure "").bind ((Copies.request _).bind (Copies.pure _))

theorem copies_copyString {text : String}
    (h : ∀ m, Owned base rich ledger m → m.content a = some (.string text)) :
    Copies base rich ledger (copyString (some a)) text := by
  rw [copyString, if_neg (Option.some_ne_none a)]
  refine (Copies.load (c := text) fun m hm => ?_).bind ((Copies.request _).bind (Copies.pure _))
  rw [Option.bind_some, h m hm]
  rfl

theorem copies_copyString_base {p : Option ℕ} (h : IsString base p) :
    Copies base rich ledger (copyString p) (textAt base p) := by
  cases p with
  | none => exact copies_copyString_null
  | some a =>
    obtain ⟨text, htext⟩ := h a rfl
    have hvalue : textAt base (some a) = text := by
      rw [textAt, Option.bind_some, htext]
      rfl
    rw [hvalue]
    exact copies_copyString fun m hm => hm.content_of_base htext

theorem map_range_length {γ δ : Type} (entries : List γ) {g : ℕ → δ} {f : γ → δ}
    (h : ∀ i entry, entries[i]? = some entry → g i = f entry) :
    (List.range entries.length).map g = entries.map f := by
  refine List.ext_getElem (by simp) fun i hi _ => ?_
  have hlt : i < entries.length := by simpa using hi
  simp [h i _ (List.getElem?_eq_getElem hlt)]

theorem copies_copyNames {entries : List (Option String)} (hmem : (a, .names entries) ∈ ledger) :
    Copies base rich ledger (copyNames entries.length (some a)) (entries.map (·.getD "")) := by
  refine (Copies.request _).bind ?_
  rw [← map_range_length entries (g := fun i => (entries[i]?.join).getD "")
    fun i entry hentry => by simp [hentry]]
  refine Copies.gather _ fun i hi => ?_
  have hview : Block.name? i (.names entries) = some entries[i]?.join := by
    simp [Block.name?, List.getElem?_eq_getElem hi]
  exact copies_copyMember hmem hview

theorem copies_copyPointers {entries : List (Option ℕ)} {text : ℕ → String}
    (hmem : (a, .pointers entries) ∈ ledger)
    (htext : ∀ i p, entries[i]? = some p → Copies base rich ledger (copyString p) (text i)) :
    Copies base rich ledger (copyPointers entries.length (some a))
      ((List.range entries.length).map text) := by
  refine (Copies.request _).bind (Copies.gather _ fun i hi => ?_)
  have hentry := List.getElem?_eq_getElem hi
  exact (Copies.load_owned hmem hentry).bind (htext i _ hentry)

theorem copies_empty {f : ℕ → Effect (Memory Block) Failure α} :
    Copies base rich ledger (do
      request Failure.badAlloc
      gather 0 f) [] :=
  (Copies.request _).bind (Copies.pure [])

/-- Whatever lists are copied from an array that is freed by its guard. -/
theorem delivers_array {γ : Type} {array : Option (List γ)} {wrap : List γ → Block}
    {copy : ℕ → Option ℕ → Effect (Memory Block) Failure (List String)} {text : γ → String}
    (hrich : rich → status = .ok)
    (hempty : Copies base rich ledger (copy 0 none) [])
    (hcopy : ∀ a entries, array = some entries →
      Copies base rich ((a, wrap entries) :: ledger) (copy entries.length (some a))
        (entries.map text)) :
    Delivers base rich ledger (do
      let raw ← receive status (array.map wrap)
      check texts status context
      (copy (countOf array) raw).guarded (·.free raw)) (status = .ok)
      ((array.getD []).map text) := by
  refine contract_receive texts context ?_ ?_ fun hne m hm => ⟨hm, fun h => hne (hrich h)⟩
  · intro hok harray
    obtain rfl := Option.map_eq_none_iff.mp harray
    exact (Delivers.of_copies hempty hok).guarded fun m hm => hm
  · intro hok a b harray
    obtain ⟨entries, rfl, rfl⟩ := Option.map_eq_some_iff.mp harray
    exact (Delivers.of_copies (hcopy a entries rfl) hok).guarded fun m hm => hm.free

theorem delivers_fetchPointers {answer : Answer (Option (List (Option ℕ)))}
    (hrich : rich → answer.status = .ok)
    (hstrings : ∀ p ∈ answer.result.getD [], IsString base p) :
    Delivers base rich ledger (fetchPointers texts context answer) (answer.status = .ok)
      ((answer.result.getD []).map (textAt base)) := by
  refine delivers_array texts context hrich copies_empty fun a entries hentries => ?_
  rw [hentries] at hstrings
  rw [← map_range_length entries (g := fun i => textAt base entries[i]?.join)
    fun i entry hentry => by simp [hentry]]
  refine copies_copyPointers List.mem_cons_self fun i p hp => ?_
  rw [hp]
  exact copies_copyString_base (hstrings p (List.mem_of_getElem? hp))

theorem delivers_fetchKeys {answer : Answer (Option (List (Option String)))}
    (hrich : rich → answer.status = .ok) :
    Delivers base rich ledger (KeyValue.fetchKeys texts context answer) (answer.status = .ok)
      ((answer.result.getD []).map (·.getD "")) :=
  delivers_array texts context hrich copies_empty fun _ _ _ => copies_copyNames List.mem_cons_self

end Shared

/-! ## Lists of servers -/

namespace Connection

variable {base : ℕ → Option Block} {rich : Prop} {ledger : List (ℕ × Block)}

/-- The strings of an array, each with its address. -/
theorem owned_allocateStrings (urls : List (Option String)) {m : Memory Block}
    (hm : Owned base rich ledger m) : ∃ entries : List (Option (ℕ × Block)),
      (allocateStrings urls m).1 = entries.map (·.map Prod.fst) ∧
      entries.map (·.map Prod.snd) = urls.map (·.map .string) ∧
      Owned base rich (pointed entries ++ ledger) (allocateStrings urls m).2 := by
  induction urls generalizing m ledger with
  | nil => exact ⟨[], rfl, rfl, hm⟩
  | cons url urls ih =>
    cases url with
    | none =>
      obtain ⟨entries, hfst, hsnd, howned⟩ := ih hm
      refine ⟨none :: entries, ?_, ?_, howned⟩
      · show none :: (allocateStrings urls m).1 = _
        rw [hfst]
        rfl
      · rw [List.map_cons, List.map_cons, hsnd, Option.map_none, Option.map_none]
    | some url =>
      obtain ⟨entries, hfst, hsnd, howned⟩ := ih (hm.allocate (.string url))
      refine ⟨some ((m.allocate (.string url)).1, .string url) :: entries, ?_, ?_, ?_⟩
      · show some _ :: (allocateStrings urls (m.allocate (.string url)).2).1 = _
        rw [hfst]
        rfl
      · rw [List.map_cons, List.map_cons, hsnd]
        rfl
      · exact howned.perm List.perm_middle

theorem mem_pointed {entries : List (Option (ℕ × Block))} {entry : ℕ × Block} :
    entry ∈ pointed entries ↔ some entry ∈ entries := by
  induction entries with
  | nil => simp [pointed]
  | cons e entries ih =>
    cases e with
    | none => simp [pointed, ih]
    | some e => simp [pointed, ih]

/-- The destructor has freed the first strings of the array. -/
theorem owned_freeEntries {entries : List (Option (ℕ × Block))} {arr : ℕ} {k : ℕ}
    {m : Memory Block} (hk : k ≤ entries.length)
    (hm : Owned base rich
      ((arr, .pointers (entries.map (·.map Prod.fst))) :: (pointed entries ++ ledger)) m) :
    Owned base rich
      ((arr, .pointers (entries.map (·.map Prod.fst))) :: (pointed (entries.drop k) ++ ledger))
      ((List.range k).foldl (freeEntry (some arr)) m) := by
  induction k with
  | zero => exact hm
  | succ k ih =>
    have hrest := ih (Nat.le_of_succ_le hk)
    rw [List.range_succ, List.foldl_append, List.foldl_cons, List.foldl_nil]
    generalize (List.range k).foldl (freeEntry (some arr)) m = n at hrest
    have hcontent := hrest.live _ _ List.mem_cons_self
    have hentry : (entries.map (·.map Prod.fst))[k]? = some (entries[k].map Prod.fst) := by
      rw [List.getElem?_map, List.getElem?_eq_getElem hk, Option.map_some]
    have hfree : freeEntry (some arr) n k = n.free (entries[k].map Prod.fst) := by
      simp only [freeEntry, Option.bind_some, hcontent, Block.pointer?, hentry]
    rw [hfree]
    rw [List.drop_eq_getElem_cons hk] at hrest
    cases he : entries[k] with
    | none =>
      rw [he] at hrest
      exact hrest
    | some entry =>
      rw [he] at hrest
      exact (hrest.perm (List.Perm.swap _ _ _)).free

theorem owned_listGuard {entries : List (Option (ℕ × Block))} {arr : ℕ} {m : Memory Block}
    (hm : Owned base rich
      ((arr, .pointers (entries.map (·.map Prod.fst))) :: (pointed entries ++ ledger)) m) :
    Owned base rich ledger (listGuard (some arr) entries.length m) := by
  have hfreed := owned_freeEntries (Nat.le_refl _) hm
  rw [List.drop_length] at hfreed
  exact hfreed.free

/-- The strings that the entries of the array lead to. -/
theorem copies_entries {entries : List (Option (ℕ × Block))} {urls : List (Option String)} {arr : ℕ}
    (hurls : entries.map (·.map Prod.snd) = urls.map (·.map .string)) :
    Copies base rich
      ((arr, .pointers (entries.map (·.map Prod.fst))) :: (pointed entries ++ ledger))
      (copyPointers urls.length (some arr)) (urls.map (·.getD "")) := by
  have hlength : urls.length = entries.length := by
    simpa using (congrArg List.length hurls).symm
  have hpointers : urls.length = (entries.map (·.map Prod.fst)).length := by
    rw [List.length_map, hlength]
  rw [← map_range_length urls (g := fun i => (urls[i]?.join).getD "")
    fun i url hurl => by simp [hurl], hpointers]
  refine copies_copyPointers List.mem_cons_self fun i p hp => ?_
  rw [List.getElem?_map] at hp
  obtain ⟨entry, hentry, rfl⟩ := Option.map_eq_some_iff.mp hp
  have hurl := congrArg (fun l => l[i]?) hurls
  simp only [List.getElem?_map, hentry, Option.map_some] at hurl
  obtain ⟨url, hurl, hsnd⟩ := Option.map_eq_some_iff.mp hurl.symm
  rw [hurl]
  cases entry with
  | none =>
    obtain rfl := Option.map_eq_none_iff.mp hsnd
    exact copies_copyString_null
  | some entry =>
    obtain ⟨text, rfl, hblock⟩ := Option.map_eq_some_iff.mp hsnd
    obtain ⟨a, b⟩ := entry
    obtain rfl : Block.string text = b := hblock
    have hmem : (a, Block.string text) ∈ pointed entries :=
      mem_pointed.mpr (List.mem_of_getElem? hentry)
    exact copies_copyString fun m hm =>
      hm.live a _ (List.mem_cons_of_mem _ (List.mem_append_left ledger hmem))

theorem outcome_getter (urls : List (Option String)) (m : Memory Block) :
    (getter ⟨.ok, some urls⟩).outcome m =
      (.ok (some ((allocateStrings urls m).2.allocate (.pointers (allocateStrings urls m).1)).1),
        ((allocateStrings urls m).2.allocate (.pointers (allocateStrings urls m).1)).2) :=
  rfl

theorem delivers_fetchServerList (texts : ErrorTexts Unit)
    {answer : Answer (Option (List (Option String)))} (hrich : rich → answer.status = .ok) :
    Delivers base rich ledger (fetchServerList texts answer) (answer.status = .ok)
      ((answer.result.getD []).map (·.getD "")) := by
  intro m hm
  obtain ⟨status, urls⟩ := answer
  by_cases hok : status = .ok
  · subst hok
    cases urls with
    | none =>
      have hempty : Copies base rich ledger (copyPointers 0 none) [] := copies_empty
      exact (Delivers.of_copies hempty rfl).guarded (fun m hm => hm) m hm
    | some urls =>
      obtain ⟨entries, hfst, hsnd, howned⟩ := owned_allocateStrings urls hm
      have hlength : urls.length = entries.length := by
        simpa using (congrArg List.length hsnd).symm
      have harray := howned.allocate (.pointers (allocateStrings urls m).1)
      rw [hfst] at harray
      rw [fetchServerList, outcome_bind_of_ok _ _ _ (outcome_getter urls m), hfst,
        outcome_bind_of_ok _ _ _ (outcome_check_ok texts _ _)]
      generalize (allocateStrings urls m).2 = n at harray
      refine (Delivers.of_copies (copies_entries hsnd) rfl).guarded (fun n hn => ?_) _ harray
      show Owned base rich ledger (listGuard _ urls.length n)
      rw [hlength]
      exact owned_listGuard hn
  · have hgetter : (getter ⟨status, urls⟩).outcome m = (.ok none, m) := by
      rw [getter, outcome_act, if_neg hok]
    rw [fetchServerList, outcome_bind_of_ok _ _ _ hgetter,
      outcome_bind_of_error _ _ _ (outcome_check_of_ne texts _ hok m)]
    exact ⟨hm, fun h => hok (hrich h)⟩

end Connection

/-! ## Objects -/

def JsConsumerInfo.copied (info : JsConsumerInfo) : ConsumerInfo :=
  ⟨info.stream.getD "", info.name.getD ""⟩

def JsPubAck.copied (ack : JsPubAck) : PubAck :=
  ⟨ack.stream.getD "", ack.sequence, ack.domain.getD "", ack.duplicate⟩

def JsStreamInfo.copied (info : JsStreamInfo) : StreamInfo where
  name := (info.config.bind (·.1)).getD ""
  description := (info.config.bind (·.2)).getD ""
  messages := info.msgs
  bytes := info.bytes
  firstSeq := info.firstSeq
  lastSeq := info.lastSeq
  consumers := info.consumers

def JsMsgMetaData.copied (data : JsMsgMetaData) : Metadata :=
  ⟨data.sequenceStream, data.sequenceConsumer, data.numDelivered, data.numPending, data.timestamp,
    data.stream.getD "", data.consumer.getD "", data.domain.getD ""⟩

def KvStatus.copied (status : KvStatus) : BucketStatus :=
  ⟨status.bucket.getD "", status.values, status.history, status.bytes, status.ttl,
    status.replicas⟩

section Objects

variable {base : ℕ → Option Block} {rich : Prop} {ledger : List (ℕ × Block)} {a : ℕ} {b : Block}

theorem copies_copyConsumerInfo {view : Block → Option JsConsumerInfo} {info : JsConsumerInfo}
    (hmem : (a, b) ∈ ledger) (hview : view b = some info) :
    Copies base rich ledger (copyConsumerInfo view (some a)) info.copied := by
  have hmember {text : Option String} (f : JsConsumerInfo → Option String) (h : f info = text) :
      Copies base rich ledger (copyMember (fun b => (view b).map f) (some a)) (text.getD "") :=
    copies_copyMember hmem (by rw [hview, Option.map_some, h])
  refine Copies.bind (hmember (·.stream) rfl) ?_
  exact Copies.bind (hmember (·.name) rfl) (Copies.pure _)

theorem copies_extractPubAck {ack : JsPubAck} (hmem : (a, .pubAck ack) ∈ ledger) :
    Copies base rich ledger (Jetstream.extractPubAck (some a)) ack.copied := by
  refine Copies.bind (copies_copyMember hmem rfl) ?_
  refine Copies.bind (Copies.load_owned hmem rfl) ?_
  refine Copies.bind (copies_copyMember hmem rfl) ?_
  exact Copies.bind (Copies.load_owned hmem rfl) (Copies.pure _)

theorem copies_extractStreamInfo {view : Block → Option JsStreamInfo} {info : JsStreamInfo}
    (hmem : (a, b) ∈ ledger) (hview : view b = some info) :
    Copies base rich ledger (Jetstream.extractStreamInfo view (some a)) info.copied := by
  have hload {γ : Type} [Inhabited γ] (f : JsStreamInfo → γ) :
      Copies base rich ledger
        (load (fun b => (view b).map f) (some a) : Effect (Memory Block) Failure γ) (f info) := by
    refine Copies.load_owned hmem ?_
    rw [hview, Option.map_some]
  have hconfig : Copies base rich ledger (Jetstream.extractConfig view (some a))
      (info.copied.name, info.copied.description) := by
    refine Copies.bind (hload (·.config.isSome)) ?_
    cases hconfig : info.config with
    | none =>
      simp only [JsStreamInfo.copied, hconfig]
      exact Copies.pure ("", "")
    | some config =>
      have htext (f : Option String × Option String → Option String) :
          Copies base rich ledger
            (copyMember (fun b => (view b).bind fun info => info.config.map f) (some a))
            ((f config).getD "") := by
        refine copies_copyMember hmem ?_
        rw [hview, Option.bind_some, hconfig, Option.map_some]
      simp only [JsStreamInfo.copied, hconfig]
      exact Copies.bind (htext (·.1)) (Copies.bind (htext (·.2)) (Copies.pure _))
  refine Copies.bind hconfig ?_
  refine Copies.bind (hload (·.msgs)) (Copies.bind (hload (·.bytes)) ?_)
  refine Copies.bind (hload (·.firstSeq)) (Copies.bind (hload (·.lastSeq)) ?_)
  exact Copies.bind (hload (·.consumers)) (Copies.pure _)

theorem copies_copyMetadata {data : JsMsgMetaData} (hmem : (a, .msgMetaData data) ∈ ledger) :
    Copies base rich ledger (Message.copyMetadata (some a)) data.copied := by
  refine Copies.bind (Copies.load_owned hmem rfl) (Copies.bind (Copies.load_owned hmem rfl) ?_)
  refine Copies.bind (Copies.load_owned hmem rfl) (Copies.bind (Copies.load_owned hmem rfl) ?_)
  refine Copies.bind (Copies.load_owned hmem rfl) (Copies.bind (copies_copyMember hmem rfl) ?_)
  exact Copies.bind (copies_copyMember hmem rfl)
    (Copies.bind (copies_copyMember hmem rfl) (Copies.pure _))

theorem copies_copyStatus {status : KvStatus} (hmem : (a, .kvStatus status) ∈ ledger) :
    Copies base rich ledger (KeyValue.copyStatus (some a)) status.copied := by
  refine Copies.bind (copies_copyMember hmem rfl) (Copies.bind (Copies.load_owned hmem rfl) ?_)
  refine Copies.bind (Copies.load_owned hmem rfl) (Copies.bind (Copies.load_owned hmem rfl) ?_)
  exact Copies.bind (Copies.load_owned hmem rfl)
    (Copies.bind (Copies.load_owned hmem rfl) (Copies.pure _))

/-- The entries that are not null, in order. -/
theorem copies_copyInfos {α γ : Type} {entry : ℕ → Block → Option (Option γ)}
    {copy : (Block → Option γ) → Option ℕ → Effect (Memory Block) Failure α} {f : γ → α}
    {infos : List (Option γ)} (hmem : (a, b) ∈ ledger) (hcount : b.count? = some infos.length)
    (hentry : ∀ i, entry i b = infos[i]?)
    (hcopy : ∀ view info, view b = some info →
      Copies base rich ledger (copy view (some a)) (f info)) :
    Copies base rich ledger (Jetstream.copyInfos entry copy (some a))
      (infos.reduceOption.map f) := by
  have hround (i : ℕ) (hi : i < infos.length) :
      Copies base rich ledger (do
        let present ← load (fun b => (entry i b).map Option.isSome) (some a)
        if present then
          let info ← copy (fun b => (entry i b).join) (some a)
          pure (some info)
        else
          pure none) (infos[i]?.join.map f) := by
    have hget := List.getElem?_eq_getElem hi
    refine (Copies.load_owned (c := infos[i].isSome) hmem ?_).bind ?_
    · rw [hentry, hget, Option.map_some]
    · cases hinfo : infos[i] with
      | none =>
        rw [hget, hinfo]
        exact Copies.pure none
      | some info =>
        rw [hget, hinfo]
        refine (hcopy _ info ?_).bind (Copies.pure _)
        rw [hentry, hget, hinfo]
        rfl
  refine (Copies.load_owned hmem hcount).bind ((Copies.request _).bind ?_)
  rw [← List.reduceOption_map, ← map_range_length infos (g := fun i => infos[i]?.join.map f)
    fun i info hinfo => by simp [hinfo]]
  exact (Copies.gather _ hround).bind (Copies.pure _)

/-- An object that is always there. -/
theorem delivers_present {α : Type} (texts : ErrorTexts Unit) (context : String) {status : Status}
    {object : Block} {null : Effect (Memory Block) Failure α}
    {copy : Option ℕ → Effect (Memory Block) Failure α} {value : α} (hrich : rich → status = .ok)
    (hcopy : ∀ a, Copies base rich ((a, object) :: ledger) (copy (some a)) value) :
    Delivers base rich ledger (withObject texts status context (some object) null copy)
      (status = .ok) value := by
  refine delivers_withObject texts context hrich (fun h => absurd h (by simp)) ?_
  intro a b hobject
  obtain rfl := Option.some.inj hobject
  exact hcopy a

/-- An object that may be missing, with the default that then counts. -/
theorem delivers_copied {α γ : Type} (texts : ErrorTexts Unit) (context : String)
    {answer : Answer (Option γ)} {wrap : γ → Block} {null : Effect (Memory Block) Failure α}
    {copy : Option ℕ → Effect (Memory Block) Failure α} {f : γ → α} {default : α}
    (hrich : rich → answer.status = .ok) (hnull : Copies base rich ledger null default)
    (hcopy : ∀ a x, Copies base rich ((a, wrap x) :: ledger) (copy (some a)) (f x)) :
    Delivers base rich ledger
      (withObject texts answer.status context (answer.result.map wrap) null copy)
      (answer.status = .ok) ((answer.result.map f).getD default) := by
  refine delivers_withObject texts context hrich ?_ ?_
  · intro hobject
    rw [Option.map_eq_none_iff.mp hobject]
    exact hnull
  · intro a b hobject
    obtain ⟨x, hx, rfl⟩ := Option.map_eq_some_iff.mp hobject
    rw [hx]
    exact hcopy a x

theorem delivers_copiedInfos {α γ : Type} (texts : ErrorTexts Unit) (context : String)
    {answer : Answer (Option (List (Option γ)))} {wrap : List (Option γ) → Block}
    {copy : Option ℕ → Effect (Memory Block) Failure (List α)} {f : γ → α}
    (hrich : rich → answer.status = .ok)
    (hcopy : ∀ a infos, Copies base rich ((a, wrap infos) :: ledger) (copy (some a))
      (infos.reduceOption.map f)) :
    Delivers base rich ledger
      (withObject texts answer.status context (answer.result.map wrap) (pure []) copy)
      (answer.status = .ok) ((answer.result.getD []).reduceOption.map f) := by
  have hvalue : (answer.result.getD []).reduceOption.map f =
      (answer.result.map fun infos => infos.reduceOption.map f).getD [] := by
    cases answer.result <;> rfl
  rw [hvalue]
  exact delivers_copied texts context hrich (Copies.pure []) hcopy

theorem delivers_listNames (texts : ErrorTexts Unit) (context : String)
    {answer : Answer (Option (List (Option String)))} (hrich : rich → answer.status = .ok) :
    Delivers base rich ledger (Jetstream.listNames texts context answer) (answer.status = .ok)
      ((answer.result.getD []).map (·.getD "")) := by
  have hvalue : (answer.result.getD []).map (·.getD "") =
      (answer.result.map fun names => names.map (·.getD "")).getD [] := by
    cases answer.result <;> rfl
  rw [hvalue]
  refine delivers_copied texts context hrich (Copies.pure []) fun a names => ?_
  exact Copies.bind (Copies.load_owned List.mem_cons_self rfl)
    (copies_copyNames List.mem_cons_self)

end Objects

/-! ## All the functions -/

namespace Accessor

variable {α : Type}

/-- The object has a native one, the arguments are right, and nats.c returns `NATS_OK`. A null
message has no headers; and `message::header` returns an empty string where nats.c refuses, so
that nothing is asked of it. -/
def Accepted : Accessor α → Prop
  | .servers answer => answer.status = .ok
  | .discoveredServers answer => answer.status = .ok
  | .lastError answer => answer.status = .ok
  | .clientIp answer => answer.status = .ok
  | .localIpAndPort answer => answer.status = .ok
  | .newInbox answer => answer.status = .ok
  | .messageHeader _ _ => True
  | .messageHeaderValues msg answer => msg = true → answer.status = .ok
  | .messageHeaderKeys msg answer => msg = true → answer.status = .ok
  | .getMetadata msg answer => msg = true ∧ answer.status = .ok
  | .headerGet raw answer => raw = true ∧ answer.status = .ok
  | .headerValues raw answer => raw = true ∧ answer.status = .ok
  | .headerKeys raw answer => raw = true ∧ answer.status = .ok
  | .getConsumerInfo sub answer => sub = true ∧ answer.status = .ok
  | .publish ctx _ answer => ctx = true ∧ answer.status = .ok
  | .getStreamInfo ctx name answer => ctx = true ∧ name ≠ "" ∧ answer.status = .ok
  | .listStreams ctx answer => ctx = true ∧ answer.status = .ok
  | .listStreamNames ctx answer => ctx = true ∧ answer.status = .ok
  | .getConsumerGroup ctx stream durableName answer =>
    ctx = true ∧ stream ≠ "" ∧ durableName ≠ "" ∧ answer.status = .ok
  | .listConsumerGroups ctx stream answer => ctx = true ∧ stream ≠ "" ∧ answer.status = .ok
  | .listConsumerGroupNames ctx stream answer => ctx = true ∧ stream ≠ "" ∧ answer.status = .ok
  | .getAccountInfo ctx answer => ctx = true ∧ answer.status = .ok
  | .keys kv answer => kv = true ∧ answer.status = .ok
  | .bucketStatus kv answer => kv = true ∧ answer.status = .ok

/-- The strings that nats.c only lends out are there, in memory that belongs to it. -/
def Borrows (base : ℕ → Option Block) : Accessor α → Prop
  | .lastError answer => IsString base answer.result
  | .messageHeader _ answer => IsString base answer.result
  | .messageHeaderValues _ answer => ∀ p ∈ answer.result.getD [], IsString base p
  | .messageHeaderKeys _ answer => ∀ p ∈ answer.result.getD [], IsString base p
  | .headerGet _ answer => IsString base answer.result
  | .headerValues _ answer => ∀ p ∈ answer.result.getD [], IsString base p
  | .headerKeys _ answer => ∀ p ∈ answer.result.getD [], IsString base p
  | _ => True

/-- The copy of what nats.c answers. A missing string is an empty one, an info that is null is
not in its list, and a null pointer in the place of an object gives default values. -/
def value (base : ℕ → Option Block) : Accessor α → α
  | .servers answer => (answer.result.getD []).map (·.getD "")
  | .discoveredServers answer => (answer.result.getD []).map (·.getD "")
  | .lastError answer => textAt base answer.result
  | .clientIp answer => answer.result.getD ""
  | .localIpAndPort answer => (answer.result.1.getD "", answer.result.2)
  | .newInbox answer => answer.result
  | .messageHeader msg answer =>
    if msg ∧ answer.status = .ok then textAt base answer.result else ""
  | .messageHeaderValues msg answer =>
    if msg then (answer.result.getD []).map (textAt base) else []
  | .messageHeaderKeys msg answer =>
    if msg then (answer.result.getD []).map (textAt base) else []
  | .getMetadata _ answer => answer.result.copied
  | .headerGet _ answer => textAt base answer.result
  | .headerValues _ answer => (answer.result.getD []).map (textAt base)
  | .headerKeys _ answer => (answer.result.getD []).map (textAt base)
  | .getConsumerInfo _ answer => (answer.result.map (·.copied)).getD {}
  | .publish _ _ answer => (answer.result.map (·.copied)).getD {}
  | .getStreamInfo _ _ answer => (answer.result.map (·.copied)).getD {}
  | .listStreams _ answer => (answer.result.getD []).reduceOption.map (·.copied)
  | .listStreamNames _ answer => (answer.result.getD []).map (·.getD "")
  | .getConsumerGroup _ _ _ answer => (answer.result.map (·.copied)).getD {}
  | .listConsumerGroups _ _ answer => (answer.result.getD []).reduceOption.map (·.copied)
  | .listConsumerGroupNames _ _ answer => (answer.result.getD []).map (·.getD "")
  | .getAccountInfo _ answer => answer.result.getD {}
  | .keys _ answer => (answer.result.getD []).map (·.getD "")
  | .bucketStatus _ answer => answer.result.copied

section Run

variable (texts : ErrorTexts Unit) {base : ℕ → Option Block} {rich : Prop}
  {ledger : List (ℕ × Block)}

theorem delivers_message {msg : Bool} {status : Status} {values : List String}
    {p : Effect (Memory Block) Failure (List String)} (hrich : rich → msg = true → status = .ok)
    (hp : (rich → status = .ok) → Delivers base rich ledger p (status = .ok) values) :
    Delivers base rich ledger (if msg then p else pure []) (msg = true → status = .ok)
      (if msg then values else []) := by
  cases msg with
  | true => exact (hp fun h => hrich h rfl).weaken fun hok _ => hok
  | false => exact Delivers.of_copies (Copies.pure []) (by simp)

/-- A name is checked after the object. -/
theorem delivers_named {valid : Bool} {name : String} {e e' : Error} {accepted : Prop} {value : α}
    {p : Effect (Memory Block) Failure α} (hvalid : rich → valid = true) (hname : rich → name ≠ "")
    (hp : Delivers base rich ledger p accepted value) :
    Delivers base rich ledger (do
      require valid e
      require (name ≠ "") e'
      p) (valid = true ∧ name ≠ "" ∧ accepted) value := by
  refine Delivers.require hvalid ?_
  refine (Delivers.require (fun h => decide_eq_true (hname h)) hp).weaken fun h => ?_
  exact ⟨of_decide_eq_true h.1, h.2⟩

theorem copies_head (a : ℕ) (text : String) :
    Copies base rich ((a, .string text) :: ledger) (copyString (some a)) text :=
  copies_copyString fun _ hm => hm.live a _ List.mem_cons_self

theorem delivers_run (call : Accessor α) (hborrows : call.Borrows base)
    (hrich : rich → call.Accepted) :
    Delivers base rich ledger (call.run texts) call.Accepted (call.value base) := by
  cases call with
  | servers answer | discoveredServers answer =>
    exact Connection.delivers_fetchServerList texts hrich
  | lastError answer =>
    exact (Delivers.check texts _ hrich (.of_copies (copies_copyString_base hborrows) trivial)).weaken
      And.left
  | clientIp answer =>
    have hvalue : answer.result.getD "" = (answer.result.map id).getD "" := by
      rw [Option.map_id, id]
    show Delivers base rich ledger (Connection.clientIp texts answer) _ (answer.result.getD "")
    rw [hvalue]
    exact delivers_copied texts _ hrich (Copies.pure "") copies_head
  | localIpAndPort answer =>
    refine delivers_withObject texts _ hrich ?_ ?_
    · intro hnull
      show Copies base rich ledger _ (answer.result.1.getD "", answer.result.2)
      rw [Option.map_eq_none_iff.mp hnull]
      exact Copies.pure _
    · intro a b hblock
      obtain ⟨ip, hip, rfl⟩ := Option.map_eq_some_iff.mp hblock
      show Copies base rich _ _ (answer.result.1.getD "", answer.result.2)
      rw [hip]
      exact Copies.bind (copies_head a ip) (Copies.pure _)
  | newInbox answer =>
    exact delivers_present texts _ hrich fun a => copies_head a answer.result
  | messageHeader msg answer =>
    refine .of_copies ?_ trivial
    show Copies base rich ledger (Message.header msg answer)
      (if msg ∧ answer.status = .ok then textAt base answer.result else "")
    by_cases hheader : msg ∧ answer.status = .ok ∧ answer.result ≠ none
    · rw [Message.header, if_pos hheader, if_pos ⟨hheader.1, hheader.2.1⟩]
      exact copies_copyString_base hborrows
    · have hempty : (if msg ∧ answer.status = .ok then textAt base answer.result else "") = "" := by
        by_cases hok : msg ∧ answer.status = .ok
        · have hnull : answer.result = none := by
            by_contra hne
            exact hheader ⟨hok.1, hok.2, hne⟩
          rw [if_pos hok, hnull]
          rfl
        · rw [if_neg hok]
      rw [Message.header, if_neg hheader, hempty]
      exact Copies.pure ""
  | messageHeaderValues msg answer =>
    exact delivers_message hrich fun hok => delivers_fetchPointers texts _ hok hborrows
  | messageHeaderKeys msg answer =>
    exact delivers_message hrich fun hok => delivers_fetchPointers texts _ hok hborrows
  | getMetadata msg answer =>
    exact Delivers.require (fun h => (hrich h).1) <|
      delivers_present texts _ (fun h => (hrich h).2) fun a =>
        copies_copyMetadata List.mem_cons_self
  | headerGet raw answer =>
    exact Delivers.require (fun h => (hrich h).1) <|
      (Delivers.check texts _ (fun h => (hrich h).2)
        (.of_copies (copies_copyString_base hborrows) trivial)).weaken And.left
  | headerValues raw answer | headerKeys raw answer =>
    exact Delivers.require (fun h => (hrich h).1) <|
      delivers_fetchPointers texts _ (fun h => (hrich h).2) hborrows
  | getConsumerInfo sub answer =>
    exact Delivers.require (fun h => (hrich h).1) <|
      delivers_copied texts _ (fun h => (hrich h).2) (Copies.pure _) fun a info =>
        copies_copyConsumerInfo List.mem_cons_self rfl
  | publish ctx context answer =>
    exact Delivers.require (fun h => (hrich h).1) <|
      delivers_copied texts _ (fun h => (hrich h).2) (Copies.pure _) fun a ack =>
        copies_extractPubAck List.mem_cons_self
  | getStreamInfo ctx name answer =>
    exact delivers_named (fun h => (hrich h).1) (fun h => (hrich h).2.1) <|
      delivers_copied texts _ (fun h => (hrich h).2.2) (Copies.pure _) fun a info =>
        copies_extractStreamInfo List.mem_cons_self rfl
  | listStreams ctx answer =>
    exact Delivers.require (fun h => (hrich h).1) <|
      delivers_copiedInfos texts _ (fun h => (hrich h).2) fun a infos =>
        copies_copyInfos List.mem_cons_self rfl (fun _ => rfl) fun view info =>
          copies_extractStreamInfo List.mem_cons_self
  | listStreamNames ctx answer =>
    exact Delivers.require (fun h => (hrich h).1) <|
      delivers_listNames texts _ fun h => (hrich h).2
  | getConsumerGroup ctx stream durableName answer =>
    refine delivers_named (fun h => (hrich h).1) (fun h => (hrich h).2.1) ?_
    refine (Delivers.require (fun h => decide_eq_true (hrich h).2.2.1) ?_).weaken
      fun h => ⟨of_decide_eq_true h.1, h.2⟩
    exact delivers_copied texts _ (fun h => (hrich h).2.2.2) (Copies.pure _) fun a info =>
      copies_copyConsumerInfo List.mem_cons_self rfl
  | listConsumerGroups ctx stream answer =>
    exact delivers_named (fun h => (hrich h).1) (fun h => (hrich h).2.1) <|
      delivers_copiedInfos texts _ (fun h => (hrich h).2.2) fun a infos =>
        copies_copyInfos List.mem_cons_self rfl (fun _ => rfl) fun view info =>
          copies_copyConsumerInfo List.mem_cons_self
  | listConsumerGroupNames ctx stream answer =>
    exact delivers_named (fun h => (hrich h).1) (fun h => (hrich h).2.1) <|
      delivers_listNames texts _ fun h => (hrich h).2.2
  | getAccountInfo ctx answer =>
    have hvalue : answer.result.getD {} = (answer.result.map id).getD {} := by
      rw [Option.map_id, id]
    show Delivers base rich ledger (Jetstream.getAccountInfo texts ctx answer) _
      (answer.result.getD {})
    rw [hvalue]
    exact Delivers.require (fun h => (hrich h).1) <|
      delivers_copied texts _ (fun h => (hrich h).2) (Copies.pure _) fun a info =>
        Copies.load_owned List.mem_cons_self rfl
  | keys kv answer =>
    exact Delivers.require (fun h => (hrich h).1) <| delivers_fetchKeys texts _ fun h => (hrich h).2
  | bucketStatus kv answer =>
    exact Delivers.require (fun h => (hrich h).1) <|
      delivers_present texts _ (fun h => (hrich h).2) fun a => copies_copyStatus List.mem_cons_self

end Run

end Accessor

/-- Each of the functions that copy a native result touches only live memory and leaves no block
behind, whatever nats.c answers and whichever request for memory is refused. If it returns, nats.c
has accepted the call and the value is the copy; it does return if nothing is refused. Of the 24
functions `message::header` also returns where nats.c refuses: its value is then empty. -/
theorem accessor_copies (texts : ErrorTexts Unit) {α : Type} (call : Accessor α)
    (m : Memory Block) (hfault : m.fault = false) (hborrows : call.Borrows m.content) :
    let r := (call.run texts).outcome m
    r.2.fault = false ∧ r.2.content = m.content ∧
      (∀ v, r.1 = .ok v → call.Accepted ∧ v = call.value m.content) ∧
      (call.Accepted → m.Generous → r.1 = .ok (call.value m.content)) :=
  (Accessor.delivers_run texts call hborrows And.left).outcome hfault

/-- Two values of a header, of which one is missing. -/
theorem accessor_copies_headerValues :
    (((Accessor.headerValues true ⟨.ok, some [some 0, none]⟩).run ⟨fun _ => none, fun _ => none⟩
      ).outcome { blocks := [some (.string "gzip")] }).1 = .ok ["gzip", ""] := by
  have hspec := accessor_copies ⟨fun _ => none, fun _ => none⟩
    (.headerValues true ⟨.ok, some [some 0, none]⟩) { blocks := [some (.string "gzip")] } rfl ?_
  · exact hspec.2.2.2 ⟨rfl, rfl⟩ fun granted hgranted => absurd hgranted (by simp)
  · intro p hp a ha
    obtain rfl : a = 0 := by simp_all
    exact ⟨"gzip", rfl⟩

end NatsCpp.NativeResults
