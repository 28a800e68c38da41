import Mathlib.Logic.Function.Basic
import Mathlib.Data.List.Nodup

/-!
# Trace contexts

`inject_trace_context` and `extract_trace_context` over any carrier. A carrier
overwrites on `set`, the output map keeps the first value on `emplace`, and
empty values are skipped; the round trip combines the three rules.
-/
namespace NatsCpp.TraceContext

/-- The concept `TraceCarrier`, with its state made explicit. -/
structure TraceCarrier (σ : Type) where
  set : σ → String → String → σ
  get : σ → String → String

/-- A map-like object; absent keys have no value. -/
abbrev OutMap := String → Option String

/-- A key that is present keeps its value. -/
def OutMap.emplace (out : OutMap) (key value : String) : OutMap :=
  if (out key).isSome then out else Function.update out key (some value)

/-- The value of the last pair with a key. -/
def lastValue (pairs : List (String × String)) (k : String) : Option String :=
  ((pairs.filter (·.1 = k)).map (·.2)).getLast?

section Carrier

variable {σ : Type} (carrier : TraceCarrier σ)

def injectTraceContext (c : σ) (pairs : List (String × String)) : σ :=
  pairs.foldl (fun c p => carrier.set c p.1 p.2) c

def extractTraceContext (c : σ) (keys : List String) (out : OutMap) : OutMap :=
  keys.foldl (fun out key =>
    let value := carrier.get c key
    if value = "" then out else out.emplace key value) out

/-- After any sets, `get` returns the last value set, or what it returned before. -/
def TraceCarrier.Lawful (c : σ) : Prop :=
  ∀ pairs k, carrier.get (pairs.foldl (fun c p => carrier.set c p.1 p.2) c) k =
    (lastValue pairs k).getD (carrier.get c k)

/-- The pairs of each key are the same, in the same order. -/
def Reordered (pairs pairs' : List (String × String)) : Prop :=
  ∀ k, pairs.filter (·.1 = k) = pairs'.filter (·.1 = k)

/-- What the carrier has under a key after the pairs have been injected. -/
def traced (c : σ) (pairs : List (String × String)) (k : String) : String :=
  (lastValue pairs k).getD (carrier.get c k)

/-- Injects pairs and extracts keys. -/
def roundTrip (c : σ) (pairs : List (String × String)) (keys : List String) (out : OutMap) :
    OutMap :=
  extractTraceContext carrier (injectTraceContext carrier c pairs) keys out

end Carrier

theorem lastValue_append (pairs pairs' : List (String × String)) (k : String) :
    lastValue (pairs ++ pairs') k = (lastValue pairs' k).or (lastValue pairs k) := by
  simp only [lastValue, List.filter_append, List.map_append, List.getLast?_append]

theorem lastValue_cons (p : String × String) (pairs : List (String × String)) (k : String) :
    lastValue (p :: pairs) k = (lastValue pairs k).or (if p.1 = k then some p.2 else none) := by
  rw [← List.singleton_append, lastValue_append]
  by_cases h : p.1 = k <;> simp [lastValue, h]

theorem Reordered.lastValue_eq {pairs pairs' : List (String × String)} (h : Reordered pairs pairs')
    (k : String) : lastValue pairs k = lastValue pairs' k := by
  rw [lastValue, lastValue, h k]

/-- Pairs with different keys may be permuted. -/
theorem reordered_of_perm {pairs pairs' : List (String × String)} (h : pairs.Perm pairs')
    (hdistinct : (pairs.map (·.1)).Nodup) : Reordered pairs pairs' := by
  intro k
  induction h with
  | nil => rfl
  | cons p _ ih =>
    have hrest := ih (List.nodup_cons.mp hdistinct).2
    simp only [List.filter_cons, hrest]
  | swap p q pairs =>
    have hne : q.1 ≠ p.1 := by
      intro heq
      simp [heq] at hdistinct
    by_cases hp : p.1 = k
    · have hq : q.1 ≠ k := hp ▸ hne
      simp [hp, hq]
    · simp only [List.filter_cons, decide_eq_true_eq, hp, if_false]
  | trans h₁ _ ih₁ ih₂ =>
    exact (ih₁ hdistinct).trans (ih₂ ((h₁.map (·.1)).nodup_iff.mp hdistinct))

section Carrier

variable {σ : Type} {carrier : TraceCarrier σ} {c : σ}

theorem emplace_apply (out : OutMap) (key value k : String) :
    out.emplace key value k = (out k).or (if key = k then some value else none) := by
  unfold OutMap.emplace
  by_cases hkey : key = k
  · subst k
    cases hout : out key <;> simp [hout]
  · by_cases hsome : (out key).isSome = true
    · simp [hsome, hkey]
    · simp [hsome, hkey, Function.update_of_ne (Ne.symm hkey)]

/-- Extraction adds the keys that have a value and are not yet present. -/
theorem extractTraceContext_apply (keys : List String) (out : OutMap) (k : String) :
    extractTraceContext carrier c keys out k =
      (out k).or (if k ∈ keys ∧ carrier.get c k ≠ "" then some (carrier.get c k) else none) := by
  induction keys generalizing out with
  | nil => simp [extractTraceContext]
  | cons key keys ih =>
    have hcons : extractTraceContext carrier c (key :: keys) out =
        extractTraceContext carrier c keys
          (if carrier.get c key = "" then out else out.emplace key (carrier.get c key)) := rfl
    rw [hcons, ih]
    by_cases hempty : carrier.get c key = ""
    · have hkey : k = key → carrier.get c k = "" := fun h => h ▸ hempty
      simp only [if_pos hempty, List.mem_cons]
      congr 2
      grind
    · simp only [if_neg hempty, emplace_apply, List.mem_cons, Option.or_assoc]
      congr 1
      grind

theorem injectTraceContext_append (pairs pairs' : List (String × String)) :
    injectTraceContext carrier c (pairs ++ pairs') =
      injectTraceContext carrier (injectTraceContext carrier c pairs) pairs' :=
  List.foldl_append

/-- A carrier is lawful from every state if a single `set` is. -/
theorem lawful_of_get_set
    (hset : ∀ c key value k, carrier.get (carrier.set c key value) k =
      if key = k then value else carrier.get c k) : carrier.Lawful c := by
  intro pairs k
  induction pairs generalizing c with
  | nil => rfl
  | cons p pairs ih =>
    rw [List.foldl_cons, ih, hset, lastValue_cons]
    by_cases hkey : p.1 = k
    · cases lastValue pairs k <;> simp [hkey]
    · simp [hkey]

theorem roundTrip_apply (h : carrier.Lawful c) (pairs : List (String × String))
    (keys : List String) (out : OutMap) (k : String) : roundTrip carrier c pairs keys out k =
      (out k).or (if k ∈ keys ∧ traced carrier c pairs k ≠ "" then
        some (traced carrier c pairs k) else none) := by
  rw [roundTrip, extractTraceContext_apply, injectTraceContext, h pairs k, traced]

/-- The round trip depends on what is injected under each key and on the set of
keys extracted. -/
theorem roundTrip_congr (h : carrier.Lawful c) {pairs pairs' : List (String × String)}
    {keys keys' : List String} (hlast : ∀ k, lastValue pairs' k = lastValue pairs k)
    (hkeys : ∀ k, k ∈ keys' ↔ k ∈ keys) (out : OutMap) :
    roundTrip carrier c pairs' keys' out = roundTrip carrier c pairs keys out := by
  funext k
  rw [roundTrip_apply h, roundTrip_apply h, traced, traced, hlast k]
  simp only [hkeys k]

/-- The law of the round trip and what does not change its result. -/
theorem roundTrip_spec (h : carrier.Lawful c) (pairs : List (String × String))
    (keys : List String) (out : OutMap) :
    (∀ k, roundTrip carrier c pairs keys out k =
      (out k).or (if k ∈ keys ∧ traced carrier c pairs k ≠ "" then
        some (traced carrier c pairs k) else none)) ∧
    (∀ pairs', Reordered pairs pairs' →
      roundTrip carrier c pairs' keys out = roundTrip carrier c pairs keys out) ∧
    (∀ pairs', pairs.Perm pairs' → (pairs.map (·.1)).Nodup →
      roundTrip carrier c pairs' keys out = roundTrip carrier c pairs keys out) ∧
    (∀ keys', (∀ k, k ∈ keys' ↔ k ∈ keys) →
      roundTrip carrier c pairs keys' out = roundTrip carrier c pairs keys out) ∧
    extractTraceContext carrier
      (injectTraceContext carrier (injectTraceContext carrier c pairs) pairs) keys out =
        roundTrip carrier c pairs keys out := by
  have hreorder (pairs' : List (String × String)) (hpairs : Reordered pairs pairs') :
      roundTrip carrier c pairs' keys out = roundTrip carrier c pairs keys out :=
    roundTrip_congr h (fun k => (hpairs.lastValue_eq k).symm) (fun _ => Iff.rfl) out
  refine ⟨roundTrip_apply h pairs keys out, hreorder, ?_, ?_, ?_⟩
  · intro pairs' hperm hdistinct
    exact hreorder pairs' (reordered_of_perm hperm hdistinct)
  · intro keys' hkeys
    exact roundTrip_congr h (fun _ => rfl) hkeys out
  · rw [← injectTraceContext_append]
    have hlast (k : String) : lastValue (pairs ++ pairs) k = lastValue pairs k := by
      rw [lastValue_append, Option.or_self]
    exact roundTrip_congr h hlast (fun _ => Iff.rfl) out

end Carrier

/-- A carrier backed by a map from keys to values. -/
def mapCarrier : TraceCarrier (String → String) where
  set c key value := Function.update c key value
  get c key := c key

theorem mapCarrier_lawful (c : String → String) : mapCarrier.Lawful c := by
  refine lawful_of_get_set fun c key value k => ?_
  by_cases hkey : key = k
  · subst k
    simp [mapCarrier]
  · simp [mapCarrier, hkey, Function.update_of_ne (Ne.symm hkey)]

/-- A header that is set twice, extracted by a list with a key that is missing. -/
theorem roundTrip_mapCarrier :
    let pairs := [("traceparent", "00"), ("tracestate", ""), ("traceparent", "01")]
    let out := roundTrip mapCarrier (fun _ => "") pairs ["traceparent", "missing"] fun _ => none
    out "traceparent" = some "01" ∧ out "missing" = none := by
  intro pairs out
  have hspec := (roundTrip_spec (mapCarrier_lawful fun _ => "") pairs ["traceparent", "missing"]
    fun _ => none).1
  refine ⟨(hspec "traceparent").trans ?_, (hspec "missing").trans ?_⟩ <;> decide

end NatsCpp.TraceContext
