import StackedCache.Proofs.BatchTraces
import StackedCache.Proofs.SceneTraces

/-!
# Batches that are read through a loader

A batch read leaves some keys missing, and a loader is called once for just
these. Whatever was in the layers before, a key that was asked for reads
afterwards as the batch said: a value that was found has been copied above all
that could hide it, and the rest has been written to all layers.
-/

namespace StackedCache

open Simulation CacheProc

-- ---------------------------------------------------------------------------
-- Calls of loaders
-- ---------------------------------------------------------------------------

/-- The loader that is called, and the keys that it is asked for if it loads several. -/
def CacheRequest.calls {Loader : Type} : CacheRequest Loader → List (Loader × Option (List String))
  | .load loader => [(loader, none)]
  | .loadMany loader keys => [(loader, some keys)]
  | _ => []

def callsOf (told : List CacheExchange) : List (ScriptedLoader × Option (List String)) :=
  told.flatMap (·.1.calls)

theorem callsOf_append (told more : List CacheExchange) :
    callsOf (told ++ more) = callsOf told ++ callsOf more :=
  List.flatMap_append ..

theorem callsOf_inputs (told : List CacheExchange) : callsOf told = callsOf (inputsOf told) := by
  induction told with
  | nil => rfl
  | cons e told ih =>
    obtain ⟨r, reply⟩ := e
    cases r <;> simpa [inputsOf, CacheRequest.isInput, callsOf, CacheRequest.calls] using ih

def Lookup.ofContent : Option Bytes → Lookup
  | some value => .hit value
  | none => .negative

theorem ofRecord_payloadOf {content : Option Bytes}
    (hshort : ∀ value, content = some value → value.length < 2 ^ 32) :
    Lookup.ofRecord (Record.decode (Record.payloadOf content)) = .ofContent content := by
  cases content with
  | none => rfl
  | some value => exact congrArg Lookup.ofRecord (Record.decode_encode_alone (hshort value rfl))

namespace Stack

/-- What comes of a batch after the layers have been read: without missing keys it is what was found.
Otherwise the loader is called, and an error of it is all that there is. What it has loaded for the
missing keys comes to what was found, and nothing else is named to layers after it. -/
inductive Fills (stack : Stack) (loader : ScriptedLoader) (batch : BatchGet) :
    List CacheExchange → Except CacheError (Table Bytes) → Prop
  | known (hnone : batch.missing = []) : Fills stack loader batch [] (.ok batch.hits)
  | failed (hsome : batch.missing ≠ []) (e : CacheError) : Fills stack loader batch
      [⟨.count .loaderCall, ()⟩, ⟨.loadMany loader batch.missing, .error e⟩] (.error e)
  | loaded {after : List CacheExchange} {loaded : Table Loaded} {values : Table Bytes}
      (hsome : batch.missing ≠ []) (hafter : ∀ e ∈ after, e.1.Proper (stack.Named batch.missing))
      (hvalues : ∀ key, values.get? key = if key ∈ batch.missing then (loaded.get? key).map Loaded.value
        else batch.hits.get? key) :
      Fills stack loader batch (⟨.count .loaderCall, ()⟩ ::
        ⟨.loadMany loader batch.missing, .ok loaded⟩ :: after) (.ok values)

section
variable {stack : Stack} {told more : List CacheExchange} {key : String} {keys : List String}
  {asked : Duration} {loaded : Table Loaded} {missing : List String} {hits values : Table Bytes}
  {given : String → Prop}

-- ---------------------------------------------------------------------------
-- Traces
-- ---------------------------------------------------------------------------

theorem Reads.callsOf_eq (h : stack.Reads given told) : callsOf told = [] := by
  rw [callsOf_inputs, h.inputs]
  rfl

theorem Drawn.callsOf_eq {dues : List Due} {draws : List CacheExchange}
    {rows : List (String × Bytes × Duration)} (h : stack.Drawn dues draws rows) : callsOf draws = [] := by
  induction h with
  | nil => rfl
  | cons hspread _ ih =>
    rw [callsOf_append, ih]
    cases hspread <;> rfl

theorem Settles.callsOf_eq {dues : List Due} (h : stack.Settles given dues told) : callsOf told = [] := by
  obtain ⟨draws, rows, hdrawn, hcomes⟩ := h
  rw [callsOf_inputs, hcomes.inputs, hdrawn.callsOf_eq]

theorem Answered.missing_eq {batch : BatchGet} (h : stack.Answered {} keys told batch) (hkeys : keys.Nodup) :
    batch.missing = keys.filter fun key => (batch.hits.get? key).isNone := by
  have hnone {key : String} (hmissing : key ∈ batch.missing) : (batch.hits.get? key).isNone := by
    rw [(h.missed hmissing).2]
    rfl
  have hsub : batch.missing.Sublist (keys.filter fun key => (batch.hits.get? key).isNone) := by
    have hfilter := h.missing.filter fun key => (batch.hits.get? key).isNone
    rwa [List.filter_eq_self.mpr fun _ hmissing => hnone hmissing] at hfilter
  refine hsub.eq_of_length_le ((hkeys.filter _).subperm fun key hkey => ?_).length_le
  obtain ⟨hkey, hget⟩ := List.mem_filter.mp hkey
  by_contra hnot
  obtain ⟨value, hvalue, -⟩ := h.found hkey hnot
  simp [hvalue] at hget

/-- The values are the hits and, for the missing keys, what was loaded. -/
theorem Stores.values_eq {batch : BatchGet}
    (h : stack.Stores given asked loaded batch.missing batch.hits told values)
    (hanswered : stack.Answered {} keys more batch) (key : String) :
    values.get? key = if key ∈ batch.missing then (loaded.get? key).map Loaded.value
      else batch.hits.get? key := by
  rw [h.values]
  split
  · rename_i hmissing
    rw [(hanswered.missed hmissing).2]
    exact Option.or_none
  · rfl

/-- If no layer fails to be read, the loader is called for what is missing, at most once. -/
theorem Remembers.fills {loader : ScriptedLoader} {result : Except CacheError (Table Bytes)}
    (h : stack.Remembers keys loader asked told result) (hreads : ∀ e ∈ told, ¬ReadFails e) :
    ∃ first rest batch, told = first ++ rest ∧ (stack.mget keys).Ends first (.ok batch) ∧
      batch.missing = (TtlMap.asked keys).filter (fun key => (batch.hits.get? key).isNone) ∧
      callsOf told = (if batch.missing = [] then [] else [(loader, some batch.missing)]) ∧
      stack.Fills loader batch rest result := by
  have hmissing {first : List CacheExchange} {batch : BatchGet}
      (h : (stack.mget keys).Ends first (.ok batch)) :
      batch.missing = (TtlMap.asked keys).filter fun key => (batch.hits.get? key).isNone :=
    ((traced_mget keys _ _ h).answered rfl).missing_eq (TtlMap.nodup_asked keys)
  have hfirst {first : List CacheExchange} {result : Except CacheError BatchGet}
      (h : (stack.mget keys).Ends first result) : callsOf first = [] :=
    (traced_mget keys _ _ h).reads.callsOf_eq
  cases h with
  | unread h =>
    obtain ⟨e, he, hfails⟩ := (traced_mget keys _ _ h).fails rfl
    exact absurd hfails (hreads e he)
  | @known _ batch h hnone =>
    refine ⟨told, [], batch, (List.append_nil _).symm, h, hmissing h, ?_, .known hnone⟩
    rw [hfirst h, if_pos hnone]
  | @failed first batch e h hsome =>
    refine ⟨first, _, batch, rfl, h, hmissing h, ?_, .failed hsome e⟩
    rw [callsOf_append, hfirst h, if_neg hsome]
    rfl
  | @loaded first after batch loaded values h hsome hstores =>
    obtain ⟨draws, rows, hdrawn, hcomes⟩ := hstores.settles
    have hanswered := (traced_mget keys _ _ h).answered rfl
    refine ⟨first, _, batch, rfl, h, hmissing h, ?_, .loaded hsome hcomes.proper (hstores.values_eq hanswered)⟩
    have hafter : callsOf after = [] := hstores.settles.callsOf_eq
    rw [callsOf_append, hfirst h, if_neg hsome]
    exact congrArg ((loader, some batch.missing) :: ·) hafter

-- ---------------------------------------------------------------------------
-- Reading afterwards
-- ---------------------------------------------------------------------------

variable {scene scene' : Scene} {value : Bytes} {content : Option Bytes}

theorem Found.does_get (h : stack.Found told key value) (hleaves : scene.Leaves told scene') :
    ∃ after, Does (stack.get key) scene' (.ok (.hit value)) after := by
  obtain ⟨payload, content, hdecode, rfl, upper, lower, below, htiers, ⟨e, he, hfetches⟩, hchanges⟩ := h
  have hread {tier : Tier} {rest : List Tier} (hfirst : stack.tiers = tier :: rest)
      (hshown : scene'.shown tier.slot (stack.fullKey key) = some payload) :
      ∃ after, Does (stack.get key) scene' (.ok (.hit (Record.positive content).value)) after := by
    have hrecord : ((scene'.storage.items tier.slot).visible? (stack.fullKey key) scene'.now).bind
        Record.decode = some (.positive content) := by
      rw [← hdecode]
      exact congrArg (Option.bind · Record.decode) hshown
    obtain ⟨storage, hdoes, -⟩ := does_readFrom_hit stack hrecord rest
    unfold Stack.get
    rw [hfirst]
    exact ⟨_, hdoes⟩
  cases upper with
  | nil =>
    refine hread htiers ?_
    rw [hleaves.shown, hchanges]
    exact hleaves.fetched hchanges he hfetches
  | cons tier upper =>
    refine hread htiers ?_
    rw [hleaves.shown, hchanges]
    exact Scene.shownAfter_puts _ _ (.inr ⟨tier, List.mem_cons_self, rfl⟩)

/-- What is in all layers is read, even if it is no record. -/
theorem does_get_of_shown (hlayered : stack.tiers ≠ []) (hnow : scene.now < Instant.horizon)
    {payload : Bytes}
    (h : ∀ tier ∈ stack.tiers, scene.shown tier.slot (stack.fullKey key) = some payload) :
    ∃ after, Does (stack.get key) scene (.ok (.ofRecord (Record.decode payload))) after := by
  have hrecord : ∀ tier ∈ stack.tiers, ((scene.storage.items tier.slot).visible? (stack.fullKey key)
      scene.now).bind Record.decode = Record.decode payload :=
    fun tier htier => congrArg (Option.bind · Record.decode) (h tier htier)
  cases hdecode : Record.decode payload with
  | none =>
    rw [hdecode] at hrecord
    obtain ⟨storage, hdoes, -⟩ := does_readFrom_miss stack scene hnow hrecord []
    exact ⟨_, hdoes⟩
  | some record =>
    rw [hdecode] at hrecord
    obtain ⟨tier, rest, htiers⟩ := List.exists_cons_of_ne_nil hlayered
    obtain ⟨storage, hdoes, -⟩ := does_readFrom_hit stack (hrecord tier (htiers ▸ List.mem_cons_self)) rest
    unfold Stack.get
    rw [htiers]
    exact ⟨_, hdoes⟩

theorem does_get_of_puts (hlayered : stack.tiers ≠ []) (hnow : scene.now < Instant.horizon)
    (hleaves : scene.Leaves told scene') {ttl : Duration}
    (hputs : changesOf (stack.fullKey key) told =
      stack.tiers.map fun tier => (tier.slot, .put (Record.payloadOf content) ttl)) :
    ∃ after, Does (stack.get key) scene' (.ok (.ofRecord (Record.decode (Record.payloadOf content)))) after := by
  refine does_get_of_shown hlayered (hleaves.now ▸ hnow) fun tier htier => ?_
  rw [hleaves.shown, hputs]
  exact Scene.shownAfter_puts _ ttl (.inr ⟨tier, htier, rfl⟩)

theorem learnedFor_content (asked : Duration) (loaded : Table Loaded) (key : String) :
    (stack.learnedFor asked loaded key).content = (loaded.get? key).map Loaded.value := by
  unfold learnedFor
  cases loaded.get? key <;> rfl

theorem Drawn.row_of_mem {dues : List Due} {draws : List CacheExchange}
    {rows : List (String × Bytes × Duration)} (h : stack.Drawn dues draws rows) {due : Due}
    (hdue : due ∈ dues) :
    ∃ ttl, (stack.fullKey due.key, Record.payloadOf due.content, ttl) ∈ rows := by
  induction h with
  | nil => cases hdue
  | cons _ _ ih =>
    rcases List.mem_cons.mp hdue with rfl | hdue
    · exact ⟨_, List.mem_cons_self⟩
    · obtain ⟨ttl, hrow⟩ := ih hdue
      exact ⟨ttl, List.mem_cons_of_mem _ hrow⟩

theorem Stores.changes (h : stack.Stores given asked loaded missing hits told values)
    (hmissing : missing.Nodup) (hkey : key ∈ missing) :
    ∃ ttl, changesOf (stack.fullKey key) told = stack.tiers.map fun tier =>
      (tier.slot, .put (Record.payloadOf ((loaded.get? key).map Loaded.value)) ttl) := by
  obtain ⟨draws, rows, hdrawn, hcomes⟩ := h.settles
  have hkeys : rows.map Prod.fst = missing.map stack.fullKey := by
    rw [hdrawn.keys, List.map_map]
    exact List.map_congr_left fun k _ => congrArg stack.fullKey (learnedFor_key asked loaded k)
  have hnodup : (rows.map Prod.fst).Nodup := hkeys ▸ hmissing.map fun _ _ => fullKey_inj.mp
  obtain ⟨ttl, hrow⟩ := hdrawn.row_of_mem (List.mem_map_of_mem hkey)
  rw [learnedFor_key, learnedFor_content] at hrow
  refine ⟨ttl, ?_⟩
  rw [hcomes.changes, putsOf, (Table.lookup_eq_some_iff hnodup).mpr hrow]

/-- After the batch each key reads as it was answered. -/
theorem Remembers.does_get {loader : ScriptedLoader} (hlayered : stack.tiers ≠ [])
    (hnow : scene.now < Instant.horizon) (h : stack.Remembers keys loader asked told (.ok values))
    (hleaves : scene.Leaves told scene') (hkey : key ∈ TtlMap.asked keys)
    (hshort : ∀ value, values.get? key = some value → value.length < 2 ^ 32) :
    ∃ after, Does (stack.get key) scene' (.ok (.ofContent (values.get? key))) after := by
  have hfound {value : Bytes} (hvalue : values.get? key = some value) (h : stack.Found told key value) :
      ∃ after, Does (stack.get key) scene' (.ok (.ofContent (values.get? key))) after :=
    hvalue ▸ h.does_get hleaves
  cases h with
  | @known _ batch h hnone =>
    obtain ⟨value, hvalue, hvalueFound⟩ :=
      ((traced_mget keys _ _ h).answered rfl).found hkey (hnone ▸ List.not_mem_nil)
    exact hfound hvalue hvalueFound
  | @loaded first after batch loaded _ h hsome hstores =>
    have hanswered := (traced_mget keys _ _ h).answered rfl
    have hvalues := hstores.values_eq hanswered key
    have hproper : ∀ e ∈ after, e.1.Proper (stack.Named batch.missing) := by
      obtain ⟨draws, rows, -, hcomes⟩ := hstores.settles
      exact hcomes.proper
    by_cases hmissing : key ∈ batch.missing
    · rw [if_pos hmissing] at hvalues
      obtain ⟨ttl, hputs⟩ := hstores.changes (hanswered.missing.nodup (TtlMap.nodup_asked keys)) hmissing
      rw [← hvalues] at hputs
      rw [← ofRecord_payloadOf hshort]
      refine does_get_of_puts hlayered hnow hleaves (Eq.trans ?_ hputs)
      rw [changesOf_append, (hanswered.missed hmissing).1]
      rfl
    · rw [if_neg hmissing] at hvalues
      obtain ⟨value, hvalue, hvalueFound⟩ := hanswered.found hkey hmissing
      have hkept : changesOf (stack.fullKey key) after = [] :=
        changesOf_eq_nil hproper (not_named hmissing)
      exact hfound (hvalues.trans hvalue) (hvalueFound.append hkept)

end

end Stack

/-- Whatever the layers reply: if no read fails, the loader is called once for the keys that were
asked for and not found, and not at all if there are none. Over layers that do not fail, each key
that was asked for reads at the same instant as the batch was answered, if its value is short enough
for the header of an array. -/
theorem mremember_loads_missing {stack : Stack} (hlayered : stack.tiers ≠ []) (keys : List String)
    (loader : ScriptedLoader) (options : RememberOptions) :
    ((stack.mremember keys loader options).Traced fun told result => (∀ e ∈ told, ¬ReadFails e) →
      ∃ first rest batch, told = first ++ rest ∧ (stack.mget keys).Ends first (.ok batch) ∧
        batch.missing = (TtlMap.asked keys).filter (fun key => (batch.hits.get? key).isNone) ∧
        callsOf told = (if batch.missing = [] then [] else [(loader, some batch.missing)]) ∧
        stack.Fills loader batch rest result) ∧
    ∀ scene : Scene, scene.now < Instant.horizon → ∀ (values : Table Bytes) (scene' : Scene),
      Does (stack.mremember keys loader options) scene (.ok values) scene' →
      scene'.now = scene.now ∧ ∀ key ∈ keys, key ≠ "" →
        (∀ value, values.get? key = some value → value.length < 2 ^ 32) →
        ∃ after, Does (stack.get key) scene' (.ok (.ofContent (values.get? key))) after := by
  have htraced := @Stack.traced_mremember stack keys loader options
  refine ⟨htraced.mono fun told result h => h.fills, fun scene hnow values scene' hdoes => ?_⟩
  obtain ⟨hends, hleaves⟩ := Scene.leaves_run hnow hdoes
  refine ⟨hleaves.now, fun key hkey hnonempty hshort => ?_⟩
  exact (htraced _ _ hends).does_get hlayered hnow hleaves (TtlMap.mem_asked.mpr ⟨hkey, hnonempty⟩) hshort

/-- In memory there is a mark that hides a value, and something that is no record. -/
def hidingLayers : Scene where
  now := 10 ^ 12
  storage :=
    { backing := fun slot => if slot = 0 then .memory 0 else .network ⟨"remote", none⟩ 0
      memories := fun _ =>
        { limit := 1
          entries := Table.ofList [("a", ⟨Record.encodeNegative, none⟩), ("b", ⟨[0], none⟩)] }
      stores := fun _ =>
        { batched := true
          rules := []
          items := Table.ofList [("a", ⟨Record.encode [1], none⟩), ("b", ⟨Record.encode [2], none⟩),
            ("c", ⟨Record.encodeNegative, none⟩)] } }
  draws := fun _ => 0

def hidingStack : Stack :=
  ⟨CacheConfig.settings { jitter := ⟨0⟩ }, [⟨0, "memory", true⟩, ⟨1, "remote", true⟩]⟩

def partialLoader : ScriptedLoader where
  key := ""
  many := .ok (Table.ofList [("c", ⟨[3], none⟩), ("z", ⟨[4], none⟩)])

theorem mremember_loads_missing_hidden :
    ∃ values scene', Does (hidingStack.mremember ["a", "", "b", "c", "a", "d"] partialLoader {})
        hidingLayers (.ok values) scene' ∧
      values.rows = [("a", [1]), ("b", [2]), ("c", [3])] ∧
      ∀ key ∈ ["a", "b", "c", "d"],
        ∃ after, Does (hidingStack.get key) scene' (.ok (.ofContent (values.get? key))) after := by
  have hrows : ((hidingStack.mremember ["a", "", "b", "c", "a", "d"] partialLoader {}).run Scene.answer
      hidingLayers).1.toOption.map Table.rows = some [("a", [1]), ("b", [2]), ("c", [3])] := by
    decide +kernel
  obtain ⟨values, hvalues, hrows⟩ := Option.map_eq_some_iff.mp hrows
  have hdoes := does_ok hvalues
  obtain ⟨-, hafter⟩ := (mremember_loads_missing (List.cons_ne_nil _ _) _ partialLoader {}).2 hidingLayers
    (by decide) _ _ hdoes
  have hshort (key : String) (value : Bytes) (hvalue : values.get? key = some value) :
      value.length < 2 ^ 32 := by
    have hmem := Table.get?_eq_some_iff.mp hvalue
    rw [hrows] at hmem
    have hall : ∀ row ∈ [("a", [(1 : UInt8)]), ("b", [2]), ("c", [3])], row.2.length < 2 ^ 32 := by
      decide
    exact hall (key, value) hmem
  refine ⟨values, _, hdoes, hrows, fun key hkey => hafter key ?_ ?_ (hshort key)⟩
  · revert key
    decide
  · revert key
    decide

def loaderOf (value : Bytes) : ScriptedLoader where
  key := ""
  many := .ok (Table.ofList [("d", ⟨value, none⟩)])

theorem mremember_long {stack : Stack} {scene mid : Scene} {value : Bytes} (hlong : 2 ^ 32 ≤ value.length)
    (hmissing : Does (stack.mget ["d"]) scene (.ok ⟨{}, ["d"]⟩) mid) (hnow : mid.now < Instant.horizon) :
    ∃ scene' after, Does (stack.mremember ["d"] (loaderOf value) {}) scene
        (.ok (Table.ofList [("d", value)])) scene' ∧
      Does (stack.get "d") scene' (.ok .miss) after := by
  obtain ⟨scene', after, hset, hget⟩ := stack.does_set_long hnow hlong "d"
    (Loaded.ttlOr ⟨value, none⟩ (stack.resolveTtl .zero))
  have hload : Does (loadMany (loaderOf value) ["d"]) mid (loaderOf value).many mid := rfl
  have hstore : Does (stack.storeLoaded (Table.ofList [("d", ⟨value, none⟩)]) (stack.resolveTtl .zero) {} ["d"])
      mid (Table.ofList [("d", value)]) scene' := hset.bind rfl
  exact ⟨scene', after, hmissing.bind (hload.bind (hstore.bind rfl)), hget⟩

/-- A value of 2³² bytes is returned, but its payload is no record, and the key is a miss. -/
theorem mremember_long_unread : ∃ values scene' after,
    Does (hidingStack.mremember ["d"] (loaderOf (List.replicate (2 ^ 32) 0)) {}) hidingLayers
      (.ok values) scene' ∧
    values.get? "d" = some (List.replicate (2 ^ 32) 0) ∧
    Does (hidingStack.get "d") scene' (.ok .miss) after := by
  have hlong : 2 ^ 32 ≤ (List.replicate (2 ^ 32) (0 : UInt8)).length :=
    Nat.le_of_eq List.length_replicate.symm
  generalize List.replicate (2 ^ 32) (0 : UInt8) = value at hlong ⊢
  obtain ⟨mid, hmissing, hnow⟩ : ∃ mid, Does (hidingStack.mget ["d"]) hidingLayers (.ok ⟨{}, ["d"]⟩) mid ∧
      mid.now < Instant.horizon := ⟨_, rfl, by decide⟩
  obtain ⟨scene', after, hdoes, hget⟩ := mremember_long hlong hmissing hnow
  exact ⟨_, scene', after, hdoes, rfl, hget⟩

end StackedCache
