import Mathlib.Logic.Function.Basic
import StackedCache.Cache
import StackedCache.Simulation.Session

/-!
# One map with deadlines

What an application sees of a cache: one map from keys to records, each with
an instant from which it is gone. There are no layers here, no flights and no
payloads; the random draws are the ones that the cache gets.
-/

namespace StackedCache

open Simulation

/-- The time to live of a write, spread by the next draw if there is jitter, and the draws
that are left. -/
def Settings.spread (settings : Settings) (ttl : Duration) (draws : Nat → Rat) :
    Duration × (Nat → Rat) :=
  match Jitter.spread? settings.jitter with
  | none => (ttl, draws)
  | some _ => (Jitter.scale Binary64.round ttl (draws 0), fun n => draws (n + 1))

def Lookup.ofRecord : Option Record → Lookup
  | none => .miss
  | some .negative => .negative
  | some (.positive value) => .hit (Record.positive value).value

structure TtlMap where
  entries : String → Option (Record × Instant) := fun _ => none
  draws : Nat → Rat

namespace TtlMap

def record? (map : TtlMap) (key : String) (now : Instant) : Option Record :=
  ((map.entries key).filter fun entry => now < entry.2).map Prod.fst

def find (map : TtlMap) (key : String) (now : Instant) : Lookup :=
  .ofRecord (map.record? key now)

variable (settings : Settings) (now : Instant)

def write (map : TtlMap) (key : String) (record : Record) (ttl : Duration) : TtlMap where
  entries := Function.update map.entries key
    (some (record, now + (settings.spread ttl map.draws).1.nanos))
  draws := (settings.spread ttl map.draws).2

def erase (map : TtlMap) (key : String) : TtlMap :=
  { map with entries := Function.update map.entries key none }

def writeAll (map : TtlMap) (ttl : Duration) : List (String × Bytes) → TtlMap
  | [] => map
  | (key, value) :: rows => (map.write settings now key (.positive (some value)) ttl).writeAll ttl rows

def load (map : TtlMap) (key : String) (loader : ScriptedLoader) (ttl : Duration) :
    Outcome × TtlMap :=
  match loader.single with
  | .ok loaded =>
    (.ok loaded.value,
      map.write settings now key (.positive (some loaded.value)) (loaded.ttlOr ttl))
  | .error e =>
    if e.isNotFound then
      (.error .notFound, map.write settings now key .negative settings.negativeTtl)
    else (.error e, map)

def remember (map : TtlMap) (key : String) (loader : ScriptedLoader) (ttl : Duration) :
    Outcome × TtlMap :=
  match map.find key now with
  | .hit value => (.ok value, map)
  | .negative => (.error .notFound, map)
  | .miss => map.load settings now key loader ttl

def collect (map : TtlMap) (found : BatchGet) : List String → BatchGet
  | [] => found
  | key :: keys =>
    match map.find key now with
    | .hit value => map.collect { found with hits := found.hits.insert key value } keys
    | _ => map.collect { found with missing := found.missing ++ [key] } keys

/-- The keys that a batch asks for: none is empty, and none comes twice. -/
def asked (keys : List String) : List String := (keys.filter (· ≠ "")).eraseDups

def fill (map : TtlMap) (loaded : Table Loaded) (ttl : Duration) (values : Table Bytes) :
    List String → Table Bytes × TtlMap
  | [] => (values, map)
  | key :: keys =>
    match loaded.get? key with
    | some item =>
      (map.write settings now key (.positive (some item.value)) (item.ttlOr ttl)).fill loaded ttl
        (values.insert key item.value) keys
    | none => (map.write settings now key .negative settings.negativeTtl).fill loaded ttl values keys

def mremember (map : TtlMap) (keys : List String) (loader : ScriptedLoader) (ttl : Duration) :
    Except CacheError (Table Bytes) × TtlMap :=
  let found := map.collect now {} (asked keys)
  if found.missing.isEmpty then (.ok found.hits, map)
  else
    match loader.many with
    | .ok loaded =>
      let (values, map) := map.fill settings now loaded ttl found.hits found.missing
      (.ok values, map)
    | .error e => (.error e, map)

def call (map : TtlMap) : Work → Answer × TtlMap
  | .get key => (.lookup (map.find key now), map)
  | .getValue key =>
    match map.find key now with
    | .hit value => (.value value, map)
    | _ => (.failed .notFound, map)
  | .set key value ttl =>
    (.done, map.write settings now key (.positive (some value)) (ttl.orElse settings.defaultTtl))
  | .delete key => (.done, map.erase key)
  | .mset items ttl =>
    (.done, map.writeAll settings now (ttl.orElse settings.defaultTtl) items.rows)
  | .remember key loader options =>
    let ttl := (options.ttl.getD .zero).orElse settings.defaultTtl
    let (outcome, map) := map.remember settings now key loader ttl
    (.ofOutcome outcome, map)
  | .mget keys => (.batch (map.collect now {} (asked keys)), map)
  | .mremember keys loader options =>
    let ttl := (options.ttl.getD .zero).orElse settings.defaultTtl
    match map.mremember settings now keys loader ttl with
    | (.ok values, map) => (.values values, map)
    | (.error e, map) => (.failed e, map)
  | .close => (.done, map)
  | _ => (.nothing, map)

-- ---------------------------------------------------------------------------
-- What is visible, and the keys of a batch
-- ---------------------------------------------------------------------------

theorem record?_write (map : TtlMap) (key k : String) (record : Record) (ttl : Duration)
    (t : Instant) :
    (map.write settings now key record ttl).record? k t =
      if k = key then
        if t < now + (settings.spread ttl map.draws).1.nanos then some record else none
      else map.record? k t := by
  unfold record? write
  by_cases hk : k = key
  · subst hk
    simp only [Function.update_self, Option.filter_some, decide_eq_true_eq, ↓reduceIte]
    split <;> rfl
  · simp [hk]

theorem record?_erase (map : TtlMap) (key k : String) (t : Instant) :
    (map.erase key).record? k t = if k = key then none else map.record? k t := by
  unfold record? erase
  by_cases hk : k = key
  · subst hk
    simp
  · simp [hk]

theorem distinctKeys_filter (seen keys : List String) :
    distinctKeys seen keys = ((keys.filter (· ≠ "")).filter (· ∉ seen)).eraseDups := by
  induction keys generalizing seen with
  | nil => rfl
  | cons key keys ih =>
    unfold distinctKeys
    by_cases hempty : key = ""
    · simp [hempty, ih]
    · by_cases hseen : key ∈ seen
      · simp [hempty, hseen, ih]
      · simp only [hempty, hseen, or_self, ↓reduceIte, ih, ne_eq, decide_not, List.filter_cons,
          decide_false, Bool.not_false, List.eraseDups_cons, List.filter_filter]
        congr 2
        refine List.filter_congr fun k _ => ?_
        by_cases hk : k = key <;> simp [hk]

theorem distinctKeys_eq (keys : List String) : distinctKeys [] keys = asked keys := by
  rw [distinctKeys_filter, asked]
  congr 1
  simp

theorem mem_asked {keys : List String} {key : String} :
    key ∈ asked keys ↔ key ∈ keys ∧ key ≠ "" := by
  simp [asked, List.mem_eraseDups]

theorem nodup_distinctKeys (seen keys : List String) :
    (distinctKeys seen keys).Nodup ∧ ∀ key ∈ distinctKeys seen keys, key ∉ seen := by
  induction keys generalizing seen with
  | nil => exact ⟨.nil, List.forall_mem_nil _⟩
  | cons key keys ih =>
    unfold distinctKeys
    split
    · exact ih seen
    · rename_i hnew
      obtain ⟨hnodup, hseen⟩ := ih (key :: seen)
      refine ⟨List.nodup_cons.mpr ⟨fun hmem => hseen key hmem List.mem_cons_self, hnodup⟩, ?_⟩
      refine List.forall_mem_cons.mpr ⟨fun hmem => hnew (.inr hmem), fun k hk hmem => ?_⟩
      exact hseen k hk (List.mem_cons_of_mem _ hmem)

theorem nodup_asked (keys : List String) : (asked keys).Nodup :=
  distinctKeys_eq keys ▸ (nodup_distinctKeys [] keys).1

end TtlMap

end StackedCache
