import Mathlib.Data.List.Nodup
import StackedCache.Proofs.SingleKeys

/-!
# Batches against one map

The operations on several keys, on layers that show what one map with
deadlines holds. The first layer answers all that can be answered, so nothing
is ever copied upwards.
-/

namespace StackedCache

open Simulation Concurrency

namespace TtlMap

variable {map : TtlMap} {now : Instant}

def Misses (map : TtlMap) (now : Instant) (key : String) : Prop :=
  ∀ value, map.find key now ≠ .hit value

theorem collect_misses {keys : List String} (h : ∀ key ∈ keys, map.Misses now key)
    (found : BatchGet) :
    map.collect now found keys = { found with missing := found.missing ++ keys } := by
  induction keys generalizing found with
  | nil => simp [collect]
  | cons key keys ih =>
    have hrest := ih fun k hk => h k (List.mem_cons_of_mem _ hk)
    unfold collect
    cases hfind : map.find key now with
    | hit value => exact absurd hfind (h key List.mem_cons_self value)
    | negative => simp [hrest]
    | miss => simp [hrest]

theorem missing_collect {keys : List String} {found : BatchGet}
    (h : ∀ key ∈ found.missing, map.Misses now key) :
    ∀ key ∈ (map.collect now found keys).missing, map.Misses now key := by
  induction keys generalizing found with
  | nil => exact h
  | cons key keys ih =>
    unfold collect
    cases hfind : map.find key now with
    | hit value => exact ih h
    | _ =>
      refine ih fun k hk => ?_
      rcases List.mem_append.mp hk with hk | hk
      · exact h k hk
      · intro value hvalue
        rw [List.mem_singleton.mp hk, hfind] at hvalue
        cases hvalue

end TtlMap

namespace Stack

open CacheProc Storage

variable {stack : Stack} {scene : Scene} {map : TtlMap}

-- ---------------------------------------------------------------------------
-- Reading
-- ---------------------------------------------------------------------------

theorem does_fetchEach (scene : Scene) (hnow : scene.now < Instant.horizon) (tier : Tier)
    (found : Table Bytes) (keys : List String) :
    ∃ found' storage, Does (fetchEach tier found keys) scene (.ok found') { scene with storage } ∧
      Kept scene.now scene.storage storage ∧
      ∀ key, found'.get? key =
        if key ∈ keys then
          ((scene.storage.items tier.slot).visible? key scene.now).or (found.get? key)
        else found.get? key := by
  induction keys generalizing scene found with
  | nil => exact ⟨found, scene.storage, rfl, Kept.refl, fun _ => rfl⟩
  | cons k keys ih =>
    obtain ⟨entry, storage, hget, hentry, hkept⟩ := does_getFrom scene tier k
    have hvisible (key : String) := hkept tier.slot key scene.now (Nat.le_refl _) hnow
    cases entry with
    | none =>
      obtain ⟨found', storage', hrest, hkept', hfound⟩ := ih { scene with storage } hnow found
      refine ⟨found', storage', hget.bind hrest, hkept.trans hkept', fun key => ?_⟩
      simp only [hfound, hvisible, List.mem_cons]
      by_cases hk : key = k
      · simp [hk, ← hentry]
      · simp [hk]
    | some entry =>
      obtain ⟨found', storage', hrest, hkept', hfound⟩ :=
        ih { scene with storage } hnow (found.insert k entry.payload)
      refine ⟨found', storage', hget.bind hrest, hkept.trans hkept', fun key => ?_⟩
      simp only [hfound, hvisible, List.mem_cons, Table.get?_insert]
      by_cases hk : key = k
      · simp [hk, ← hentry]
      · simp [hk, Ne.symm hk]

theorem does_fetch (scene : Scene) (hnow : scene.now < Instant.horizon) (tier : Tier)
    (keys : List String) :
    ∃ found storage, Does (fetch tier keys) scene (.ok found) { scene with storage } ∧
      Kept scene.now scene.storage storage ∧
      ∀ key ∈ keys, found.get? key = (scene.storage.items tier.slot).visible? key scene.now := by
  unfold fetch
  cases tier.batched with
  | true =>
    obtain ⟨⟨batch, hreply, hbatch⟩, hkept⟩ := mget_spec scene.storage scene.now hnow tier.slot keys
    have hmget : Does (mgetFrom tier keys) scene (.ok batch) _ := Prod.ext hreply rfl
    exact ⟨batch.hits, _, hmget.bind rfl, hkept, fun key hk => (hbatch key).trans (if_pos hk)⟩
  | false =>
    obtain ⟨found, storage, hfetch, hkept, hfound⟩ := does_fetchEach scene hnow tier {} keys
    refine ⟨found, storage, hfetch, hkept, fun key hk => ?_⟩
    rw [hfound, if_pos hk]
    exact Option.or_none

theorem does_sortOne (scene : Scene) (tier : Tier) {found : Table Bytes} {key : String}
    {record : Option Record}
    (hfound : (found.get? (stack.fullKey key)).bind Record.decode = record) (sorted : Sorted) :
    ∃ sorted', Does (stack.sortOne tier found sorted key) scene sorted' scene ∧
      match Lookup.ofRecord record with
      | .hit value => sorted'.hits = sorted.hits.insert key value ∧ sorted'.pending = sorted.pending
      | _ => sorted' = { sorted with pending := sorted.pending ++ [key] } := by
  subst hfound
  unfold sortOne
  cases found.get? (stack.fullKey key) with
  | none => exact ⟨_, rfl, rfl⟩
  | some payload =>
    simp only [Option.bind_some]
    cases Record.decode payload with
    | none => exact ⟨_, rfl, rfl⟩
    | some record =>
      cases record with
      | negative => exact ⟨_, rfl, rfl⟩
      | positive value => exact ⟨_, rfl, rfl, rfl⟩

theorem does_sortAll (scene : Scene) (tier : Tier) {now : Instant} {found : Table Bytes}
    {keys : List String}
    (hfound : ∀ key ∈ keys, (found.get? (stack.fullKey key)).bind Record.decode = map.record? key now)
    (sorted : Sorted) :
    ∃ sorted', Does (stack.sortAll tier found sorted keys) scene sorted' scene ∧
      map.collect now ⟨sorted.hits, sorted.pending⟩ keys = ⟨sorted'.hits, sorted'.pending⟩ ∧
      ((∀ key ∈ keys, map.Misses now key) → sorted'.promoted = sorted.promoted) := by
  induction keys generalizing sorted with
  | nil => exact ⟨sorted, rfl, rfl, fun _ => rfl⟩
  | cons key keys ih =>
    obtain ⟨mid, hone, hmid⟩ := does_sortOne scene tier (hfound key List.mem_cons_self) sorted
    obtain ⟨sorted', hall, hcollect, hpromoted⟩ :=
      ih (fun k hk => hfound k (List.mem_cons_of_mem _ hk)) mid
    refine ⟨sorted', hone.bind hall, ?_, fun hmisses => ?_⟩
    · rw [← hcollect]
      unfold TtlMap.collect TtlMap.find
      cases hlookup : Lookup.ofRecord (map.record? key now) with
      | hit value =>
        rw [hlookup] at hmid
        rw [hmid.1, hmid.2]
        cases keys <;> rfl
      | _ =>
        rw [hlookup] at hmid
        rw [hmid]
        cases keys <;> rfl
    · rw [hpromoted fun k hk => hmisses k (List.mem_cons_of_mem _ hk)]
      have hmiss := hmisses key List.mem_cons_self
      unfold TtlMap.Misses TtlMap.find at hmiss
      cases hlookup : Lookup.ofRecord (map.record? key now) with
      | hit value => exact absurd hlookup (hmiss value)
      | _ =>
        rw [hlookup] at hmid
        rw [hmid]

theorem does_fetchSorted (h : Refines stack scene map) (hnow : scene.now < Instant.horizon)
    {tier : Tier} (ht : tier ∈ stack.tiers) (hits : Table Bytes) (pending : List String) :
    ∃ found storage sorted,
      Does (fetch tier (pending.map stack.fullKey)) scene (.ok found) { scene with storage } ∧
      Does (stack.sortAll tier found { hits := hits } pending) { scene with storage } sorted
        { scene with storage } ∧
      Refines stack { scene with storage } map ∧
      map.collect scene.now ⟨hits, []⟩ pending = ⟨sorted.hits, sorted.pending⟩ ∧
      ((∀ key ∈ pending, map.Misses scene.now key) → sorted.promoted = {}) := by
  obtain ⟨found, storage, hfetch, hkept, hfound⟩ :=
    does_fetch scene hnow tier (pending.map stack.fullKey)
  have hrecords : ∀ key ∈ pending,
      (found.get? (stack.fullKey key)).bind Record.decode = map.record? key scene.now := by
    intro key hk
    rw [hfound _ (List.mem_map_of_mem hk)]
    exact h.shows tier ht key scene.now (Nat.le_refl _) hnow
  obtain ⟨sorted, hsort, hcollect, hpromoted⟩ :=
    does_sortAll { scene with storage } tier hrecords { hits := hits }
  exact ⟨found, storage, sorted, hfetch, hsort, ⟨h.shows.kept hkept, h.draws⟩, hcollect, hpromoted⟩

/-- Nothing pending can be answered: the read goes through all layers. -/
theorem realizes_fetchFrom {scene : Scene} (h : Refines stack scene map)
    (hnow : scene.now < Instant.horizon) (hits : Table Bytes) {pending : List String}
    (hmisses : ∀ key ∈ pending, map.Misses scene.now key) (above : List Tier) {below : List Tier}
    (hbelow : ∀ tier ∈ below, tier ∈ stack.tiers) :
    Realizes stack (stack.fetchFrom hits pending above below) scene (.ok ⟨hits, pending⟩) map := by
  induction below generalizing scene above with
  | nil => exact ⟨scene, rfl, rfl, rfl, h⟩
  | cons tier below ih =>
    unfold fetchFrom
    cases hempty : pending.isEmpty with
    | true =>
      rw [List.isEmpty_iff.mp hempty]
      exact ⟨scene, rfl, rfl, rfl, h⟩
    | false =>
      obtain ⟨found, storage, sorted, hfetch, hsort, h', hcollect, hpromoted⟩ :=
        does_fetchSorted h hnow (hbelow tier List.mem_cons_self) hits pending
      rw [TtlMap.collect_misses hmisses] at hcollect
      cases hcollect
      have hrest := ih h' hnow hmisses (above ++ [tier])
        fun t ht => hbelow t (List.mem_cons_of_mem _ ht)
      obtain ⟨scene', hdoes, hnow', hguard, h''⟩ := hrest
      refine ⟨scene', hfetch.bind (hsort.bind ?_), hnow', hguard, h''⟩
      rw [hpromoted hmisses]
      exact hdoes

theorem realizes_mget (hstack : stack.Usable) (h : Refines stack scene map)
    (hnow : scene.now < Instant.horizon) (keys : List String) :
    Realizes stack (stack.mget keys) scene
      (.ok (map.collect scene.now {} (TtlMap.asked keys))) map := by
  unfold mget
  rw [TtlMap.distinctKeys_eq]
  cases hempty : (TtlMap.asked keys).isEmpty with
  | true =>
    rw [List.isEmpty_iff.mp hempty]
    exact ⟨scene, rfl, rfl, rfl, h⟩
  | false =>
    obtain ⟨tier, below, htiers⟩ := List.exists_cons_of_ne_nil hstack.layered
    obtain ⟨found, storage, sorted, hfetch, hsort, h', hcollect, -⟩ :=
      does_fetchSorted h hnow (htiers ▸ List.mem_cons_self) {} (TtlMap.asked keys)
    have hmisses : ∀ key ∈ (map.collect scene.now ⟨{}, []⟩ (TtlMap.asked keys)).missing,
        map.Misses scene.now key := TtlMap.missing_collect (List.forall_mem_nil _)
    rw [hcollect] at hmisses
    have hbelow : ∀ tier ∈ below, tier ∈ stack.tiers :=
      fun t ht => htiers ▸ List.mem_cons_of_mem _ ht
    obtain ⟨scene', hdoes, hnow', hguard, h''⟩ :=
      realizes_fetchFrom h' hnow sorted.hits hmisses [tier] hbelow
    refine ⟨scene', ?_, hnow', hguard, h''⟩
    have hcollect : map.collect scene.now {} (TtlMap.asked keys) = ⟨sorted.hits, sorted.pending⟩ :=
      hcollect
    rw [htiers, hcollect]
    unfold fetchFrom
    simp only [hempty, Bool.false_eq_true, ↓reduceIte]
    refine hfetch.bind (hsort.bind ?_)
    -- there is no layer above the first one to copy anything into
    cases sorted.promoted.isEmpty <;> exact hdoes

-- ---------------------------------------------------------------------------
-- Writing
-- ---------------------------------------------------------------------------

def drawn (stack : Stack) (ttl : Duration) (draws : Nat → Rat) :
    List (String × Bytes) → List (String × Bytes × Duration) × (Nat → Rat)
  | [] => ([], draws)
  | item :: items =>
    let spread := stack.settings.spread ttl draws
    let rest := stack.drawn ttl spread.2 items
    ((stack.fullKey item.1, Record.encode item.2, spread.1) :: rest.1, rest.2)

theorem does_drawRows (stack : Stack) (ttl : Duration) (scene : Scene)
    (items : List (String × Bytes)) :
    Does (stack.drawRows ttl items) scene (stack.drawn ttl scene.draws items).1
      { scene with draws := (stack.drawn ttl scene.draws items).2 } := by
  induction items generalizing scene with
  | nil => rfl
  | cons item items ih => exact (does_jittered stack scene ttl).bind ((ih _).bind rfl)

def shownRow (now : Instant) (row : String × Bytes × Duration) : Instant → Option Bytes :=
  shownFor row.2.1 row.2.2 now

/-- Under the keys of some rows something else may be seen from an instant on. -/
def KeptButRows (now : Instant) (rows : List (String × Bytes × Duration))
    (before after : Storage) : Prop :=
  ∀ slot key, after.Sees now slot key ((before.items slot).visible? key) ∨
    ∃ row ∈ rows, key = row.1 ∧ after.Sees now slot key (shownRow now row)

theorem does_writeRows (scene : Scene) (tier : Tier) {rows : List (String × Bytes × Duration)}
    (hrows : (rows.map Prod.fst).Nodup) :
    ∃ storage, Does (writeRows tier (.ok ()) rows) scene (.ok ()) { scene with storage } ∧
      (∀ row ∈ rows, storage.Sees scene.now tier.slot row.1 (shownRow scene.now row)) ∧
      KeptButRows scene.now rows scene.storage storage := by
  induction rows generalizing scene with
  | nil => exact ⟨scene.storage, rfl, List.forall_mem_nil _, fun slot key => .inl (Kept.refl slot key)⟩
  | cons row rows ih =>
    obtain ⟨hnew, hrows⟩ := List.nodup_cons.mp hrows
    obtain ⟨storage, hset, hsees, hkept⟩ := does_setIn scene tier row.1 row.2.1 row.2.2
    obtain ⟨storage', hwrite, hall, hkept'⟩ := ih { scene with storage } hrows
    refine ⟨storage', hset.bind hwrite, ?_, ?_⟩
    · intro row' hr
      rcases List.mem_cons.mp hr with rfl | hr
      · rcases hkept' tier.slot row'.1 with hsame | ⟨other, ho, hkey, -⟩
        · exact hsees.trans hsame
        · exact absurd (hkey ▸ List.mem_map_of_mem ho) hnew
      · exact hall row' hr
    · intro slot key
      rcases hkept' slot key with hsame | ⟨other, ho, hkey, hnew⟩
      · rcases hkept slot key with hsame' | ⟨rfl, hfirst⟩
        · exact .inl (hsame'.trans hsame)
        · exact .inr ⟨row, List.mem_cons_self, rfl, hfirst.trans hsame⟩
      · exact .inr ⟨other, List.mem_cons_of_mem _ ho, hkey, hnew⟩

theorem row_unique {rows : List (String × Bytes × Duration)} (hrows : (rows.map Prod.fst).Nodup)
    {row row' : String × Bytes × Duration} (hr : row ∈ rows) (hr' : row' ∈ rows)
    (hkey : row.1 = row'.1) : row = row' :=
  List.inj_on_of_nodup_map hrows hr hr' hkey

theorem does_writeRowsEach (scene : Scene) {rows : List (String × Bytes × Duration)}
    (hrows : (rows.map Prod.fst).Nodup) (tiers : List Tier) :
    ∃ storage, Does (writeRowsEach rows (.ok ()) tiers) scene (.ok ()) { scene with storage } ∧
      (∀ tier ∈ tiers, ∀ row ∈ rows,
        storage.Sees scene.now tier.slot row.1 (shownRow scene.now row)) ∧
      KeptButRows scene.now rows scene.storage storage := by
  induction tiers generalizing scene with
  | nil => exact ⟨scene.storage, rfl, List.forall_mem_nil _, fun slot key => .inl (Kept.refl slot key)⟩
  | cons tier tiers ih =>
    obtain ⟨storage, hwrite, hsees, hkept⟩ := does_writeRows scene tier hrows
    obtain ⟨storage', hrest, hall, hkept'⟩ := ih { scene with storage }
    refine ⟨storage', hwrite.bind hrest, ?_, ?_⟩
    · intro tier' ht row hr
      rcases List.mem_cons.mp ht with rfl | ht
      · rcases hkept' tier'.slot row.1 with hsame | ⟨other, ho, hkey, hagain⟩
        · exact (hsees row hr).trans hsame
        · rw [row_unique hrows hr ho hkey]
          exact hkey ▸ hagain
      · exact hall tier' ht row hr
    · intro slot key
      rcases hkept' slot key with hsame | hchanged
      · rcases hkept slot key with hsame' | ⟨row, hr, hkey, hnew⟩
        · exact .inl (hsame'.trans hsame)
        · exact .inr ⟨row, hr, hkey, hnew.trans hsame⟩
      · exact .inr hchanged

theorem drawn_keys (stack : Stack) (ttl : Duration) (draws : Nat → Rat)
    (items : List (String × Bytes)) :
    (stack.drawn ttl draws items).1.map Prod.fst = items.map fun item => stack.fullKey item.1 := by
  induction items generalizing draws with
  | nil => rfl
  | cons item items ih => exact congrArg _ (ih _)

theorem drawn_shown (now : Instant) {ttl : Duration} (httl : ttl.isZero = false)
    {items : List (String × Bytes)} (hitems : (items.map Prod.fst).Nodup)
    (hvalues : ∀ item ∈ items, item.2.length < 2 ^ 32) (map : TtlMap) :
    (∀ k, k ∉ items.map Prod.fst → ∀ t,
      (map.writeAll stack.settings now ttl items).record? k t = map.record? k t) ∧
    (∀ row ∈ (stack.drawn ttl map.draws items).1, ∀ k, stack.fullKey k = row.1 → ∀ t,
      (map.writeAll stack.settings now ttl items).record? k t =
        (shownRow now row t).bind Record.decode) ∧
    (map.writeAll stack.settings now ttl items).draws = (stack.drawn ttl map.draws items).2 := by
  induction items generalizing map with
  | nil => exact ⟨fun _ _ _ => rfl, List.forall_mem_nil _, rfl⟩
  | cons item items ih =>
    obtain ⟨hnew, hitems⟩ := List.nodup_cons.mp hitems
    obtain ⟨hvalue, hvalues⟩ := List.forall_mem_cons.mp hvalues
    obtain ⟨hothers, hrows, hdraws⟩ :=
      ih hitems hvalues (map.write stack.settings now item.1 (.positive (some item.2)) ttl)
    refine ⟨fun k hk t => ?_, fun row hr k hkey t => ?_, hdraws⟩
    · obtain ⟨hne, hk⟩ := not_or.mp (mt List.mem_cons.mpr hk)
      exact (hothers k hk t).trans ((TtlMap.record?_write ..).trans (if_neg hne))
    · rcases List.mem_cons.mp hr with hfirst | hr
      · rw [hfirst] at hkey ⊢
        have hk : k = item.1 := fullKey_inj.mp hkey
        have hspread := stack.settings.spread_isZero httl map.draws
        rw [shownRow, shownFor_decode hspread (Record.decode_encode_alone hvalue), hk]
        exact (hothers item.1 hnew t).trans ((TtlMap.record?_write ..).trans (if_pos rfl))
      · exact hrows row hr k hkey t

theorem realizes_mset (hstack : stack.Usable) (h : Refines stack scene map) {items : Table Bytes}
    (hvalues : ∀ item ∈ items.rows, item.2.length < 2 ^ 32) (ttl : Duration) :
    Realizes stack (stack.mset items ttl) scene (.ok ())
      (map.writeAll stack.settings scene.now (ttl.orElse stack.settings.defaultTtl) items.rows) := by
  unfold mset
  cases hempty : items.isEmpty with
  | true =>
    have hrows : items.rows = [] := List.isEmpty_iff.mp hempty
    rw [hrows]
    exact ⟨scene, rfl, rfl, rfl, h⟩
  | false =>
    have httl : (stack.resolveTtl ttl).isZero = false := Duration.isZero_orElse hstack.lasting
    obtain ⟨hothers, hshown, hdraws⟩ := drawn_shown scene.now httl items.nodup hvalues map
    rw [← h.draws] at hshown hdraws
    have hkeys : ((stack.drawn (stack.resolveTtl ttl) scene.draws items.rows).1.map Prod.fst).Nodup := by
      have hinj : Function.Injective stack.fullKey := fun _ _ => fullKey_inj.mp
      have hnodup := items.nodup.map hinj
      rw [List.map_map] at hnodup
      rw [drawn_keys]
      exact hnodup
    obtain ⟨storage, hwrite, hsees, hkept⟩ := does_writeRowsEach
      { scene with draws := (stack.drawn (stack.resolveTtl ttl) scene.draws items.rows).2 } hkeys
      stack.tiers
    refine ⟨_, (does_drawRows stack _ scene items.rows).bind hwrite, rfl, rfl, ?_, hdraws.symm⟩
    intro tier ht k t hle hlt
    have hmem : k ∈ items.rows.map Prod.fst ↔
        ∃ row ∈ (stack.drawn (stack.resolveTtl ttl) scene.draws items.rows).1,
          row.1 = stack.fullKey k := by
      rw [← List.mem_map, drawn_keys]
      simp only [List.mem_map, fullKey_inj]
    by_cases hk : k ∈ items.rows.map Prod.fst
    · obtain ⟨row, hr, hkey⟩ := hmem.mp hk
      rw [← hkey, hsees tier ht row hr t hle hlt]
      exact (hshown row hr k hkey.symm t).symm
    · rcases hkept tier.slot (stack.fullKey k) with hsame | ⟨row, hr, hkey, -⟩
      · rw [hsame t hle hlt]
        exact (h.shows tier ht k t hle hlt).trans (hothers k hk t).symm
      · exact absurd (hmem.mpr ⟨row, hr, hkey.symm⟩) hk

-- ---------------------------------------------------------------------------
-- Loading
-- ---------------------------------------------------------------------------

theorem realizes_storeLoaded (hstack : stack.Usable) {scene : Scene} {map : TtlMap}
    (h : Refines stack scene map) {loaded : Table Loaded}
    (hloaded : ∀ row ∈ loaded.rows, row.2.value.length < 2 ^ 32) {ttl : Duration}
    (httl : ttl.isZero = false) (values : Table Bytes) (keys : List String) :
    Realizes stack (stack.storeLoaded loaded ttl values keys) scene
      (map.fill stack.settings scene.now loaded ttl values keys).1
      (map.fill stack.settings scene.now loaded ttl values keys).2 := by
  induction keys generalizing scene map values with
  | nil => exact ⟨scene, rfl, rfl, rfl, h⟩
  | cons key keys ih =>
    unfold storeLoaded TtlMap.fill
    cases hitem : loaded.get? key with
    | some item =>
      have httl' : (item.ttlOr ttl).isZero = false := Duration.isZero_orElse httl
      have hvalue := hloaded (key, item) (Table.get?_eq_some_iff.mp hitem)
      have hset := realizes_set hstack h key hvalue (item.ttlOr ttl)
      rw [Duration.orElse_of_lasting httl'] at hset
      refine hset.bind fun scene' hnow' h' => ?_
      have hrest := ih h' (values.insert key item.value)
      rw [hnow'] at hrest
      exact hrest
    | none =>
      refine (realizes_setNegative hstack h key).bind fun scene' hnow' h' => ?_
      have hrest := ih h' values
      rw [hnow'] at hrest
      exact hrest

theorem realizes_mremember (hstack : stack.Usable) (h : Refines stack scene map)
    (hnow : scene.now < Instant.horizon) (keys : List String) {loader : ScriptedLoader}
    (hloaded : ∀ loaded, loader.many = .ok loaded → ∀ row ∈ loaded.rows, row.2.value.length < 2 ^ 32)
    (options : RememberOptions) {ttl : Duration}
    (httl : stack.resolveTtl (options.ttl.getD .zero) = ttl) :
    Realizes stack (stack.mremember keys loader options) scene
      (map.mremember stack.settings scene.now keys loader ttl).1
      (map.mremember stack.settings scene.now keys loader ttl).2 := by
  have hlasting : ttl.isZero = false := httl ▸ Duration.isZero_orElse hstack.lasting
  obtain ⟨scene', hget, hnow', hguard, h'⟩ := realizes_mget hstack h hnow keys
  unfold mremember TtlMap.mremember
  rw [httl]
  generalize map.collect scene.now {} (TtlMap.asked keys) = found at hget ⊢
  cases hempty : found.missing.isEmpty with
  | true =>
    simp only [hempty, ↓reduceIte]
    refine ⟨scene', hget.bind ?_, hnow', hguard, h'⟩
    simp only [hempty, ↓reduceIte]
    rfl
  | false =>
    have hload : Does (loadMany loader found.missing) scene' loader.many scene' := rfl
    simp only [hempty, Bool.false_eq_true, ↓reduceIte]
    cases hmany : loader.many with
    | error e =>
      rw [hmany] at hload
      refine ⟨scene', hget.bind ?_, hnow', hguard, h'⟩
      simp only [hempty, Bool.false_eq_true, ↓reduceIte]
      exact hload.bind rfl
    | ok loaded =>
      rw [hmany] at hload
      obtain ⟨scene'', hstore, hnow'', hguard', h''⟩ :=
        realizes_storeLoaded hstack h' (hloaded loaded hmany) hlasting found.hits found.missing
      rw [hnow'] at hstore h''
      refine ⟨scene'', hget.bind ?_, hnow''.trans hnow', hguard'.trans hguard, h''⟩
      simp only [hempty, Bool.false_eq_true, ↓reduceIte]
      refine hload.bind (hstore.bind ?_)
      -- keys that nobody asked for are only reported
      split <;> rfl

end Stack

end StackedCache
