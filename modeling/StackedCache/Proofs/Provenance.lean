import StackedCache.Proofs.Discipline
import StackedCache.Proofs.RecordTruncation
import StackedCache.Simulation.Session

/-!
# Where contents come from

A record tells a value of its key, or that there is none. Such contents come
into a cache through the arguments of a call or from its loader, and go out in
its answer. In between they are payloads, which the exchanges of a call with
its surroundings show.
-/

namespace StackedCache

open Simulation

-- ---------------------------------------------------------------------------
-- Contents
-- ---------------------------------------------------------------------------

def Record.content : Record → Option Bytes
  | .positive value => some (Record.positive value).value
  | .negative => none

def Record.payloadOf : Option Bytes → Bytes
  | some value => encode value
  | none => encodeNegative

theorem Record.content_of_payloadOf {content : Option Bytes} {record : Record}
    (h : decode (payloadOf content) = some record) : record.content = content := by
  cases content with
  | some value => exact congrArg Record.content (eq_of_decode_encode h)
  | none =>
    cases h
    rfl

-- ---------------------------------------------------------------------------
-- Calls
-- ---------------------------------------------------------------------------

inductive Given : Work → String → Option Bytes → Prop
  | set {key : String} {value : Bytes} {ttl : Duration} : Given (.set key value ttl) key (some value)
  | mset {items : Table Bytes} {ttl : Duration} {key : String} {value : Bytes}
      (h : items.get? key = some value) : Given (.mset items ttl) key (some value)

abbrev CacheExchange : Type := Exchange (CacheCalls ScriptedLoader)

/-- The call learns a content of the key from its loader: a value that the loader returns, or that
there is none, when the loader fails with not found or leaves out the key that it was asked for. -/
inductive Learned : Work → CacheExchange → String → Option Bytes → Prop
  | loaded {key : String} {loader : ScriptedLoader} {options : RememberOptions} {item : Loaded} :
      Learned (.remember key loader options) ⟨.load loader, .ok item⟩ key (some item.value)
  | notFound {key : String} {loader : ScriptedLoader} {options : RememberOptions} {e : CacheError}
      (h : e.isNotFound) : Learned (.remember key loader options) ⟨.load loader, .error e⟩ key none
  | loadedMany {keys asked : List String} {loader : ScriptedLoader} {options : RememberOptions}
      {items : Table Loaded} {key : String} {item : Loaded} (hkey : key ∈ asked)
      (h : items.get? key = some item) :
      Learned (.mremember keys loader options) ⟨.loadMany loader asked, .ok items⟩ key
        (some item.value)
  | leftOut {keys asked : List String} {loader : ScriptedLoader} {options : RememberOptions}
      {items : Table Loaded} {key : String} (hkey : key ∈ asked) (h : items.get? key = none) :
      Learned (.mremember keys loader options) ⟨.loadMany loader asked, .ok items⟩ key none

inductive Tells : Work → Answer → String → Option Bytes → Prop
  | hit {key : String} {value : Bytes} : Tells (.get key) (.lookup (.hit value)) key (some value)
  | negative {key : String} : Tells (.get key) (.lookup .negative) key none
  | value {key : String} {value : Bytes} : Tells (.getValue key) (.value value) key (some value)
  | remembered {key : String} {loader : ScriptedLoader} {options : RememberOptions} {value : Bytes} :
      Tells (.remember key loader options) (.value value) key (some value)
  | batch {keys : List String} {found : BatchGet} {key : String} {value : Bytes}
      (h : found.hits.get? key = some value) : Tells (.mget keys) (.batch found) key (some value)
  | rememberedMany {keys : List String} {loader : ScriptedLoader} {options : RememberOptions}
      {values : Table Bytes} {key : String} {value : Bytes} (h : values.get? key = some value) :
      Tells (.mremember keys loader options) (.values values) key (some value)

-- ---------------------------------------------------------------------------
-- Exchanges
-- ---------------------------------------------------------------------------

inductive Fetches : CacheExchange → Nat → String → Option Bytes → Prop
  | get {slot : Nat} {key : String} {found : Option Entry} :
      Fetches ⟨.layer slot (.get key), .ok found⟩ slot key (found.map Entry.payload)
  | mget {slot : Nat} {keys : List String} {batch : BatchHits} {key : String} (h : key ∈ keys) :
      Fetches ⟨.layer slot (.mget keys), .ok batch⟩ slot key (batch.hits.get? key)

/-- The request may change what is under a key. -/
def CacheRequest.Touches {Loader : Type} (key : String) : CacheRequest Loader → Prop
  | .layer _ (.set k _ _) | .layer _ (.delete k) => k = key
  | .layer _ (.mset items _) => ∃ payload, (key, payload) ∈ items.rows
  | _ => False

def Untouched (key : String) (told : List CacheExchange) : Prop :=
  ∀ e ∈ told, ¬e.1.Touches key

theorem Untouched.append {key : String} {told more : List CacheExchange} (h : Untouched key told)
    (hmore : Untouched key more) : Untouched key (told ++ more) :=
  List.forall_mem_append.mpr ⟨h, hmore⟩

end StackedCache
