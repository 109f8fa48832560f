import StackedCache.Proofs.Accounts
import StackedCache.Proofs.Concurrency.SharedBatches

/-!
# Accounts of batches

The calls on several keys are accountable as well. A batch read copies upwards
what it has sorted out of one layer's answer, under the key that it was asked
for; the keys that go on to the next layer have had no value so far.
-/

namespace StackedCache

open Simulation Concurrency CacheProc Account

-- ---------------------------------------------------------------------------
-- Reading one layer
-- ---------------------------------------------------------------------------

structure Reported (told : List CacheExchange) (slot : Nat) (keys : List String)
    (found : Table Bytes) : Prop where
  asked {key : String} : key ∈ keys → ∃ e ∈ told, Fetches e slot key (found.get? key)
  silent {key : String} : key ∉ keys → found.get? key = none

theorem Reported.next {told more : List CacheExchange} {slot : Nat} {keys : List String}
    {found : Table Bytes} (h : Reported told slot keys found) (hle : told <+: more) {key : String}
    {entry : Option Entry} (hentry : ∃ e ∈ more, Fetches e slot key (entry.map Entry.payload)) :
    Reported more slot (keys ++ [key])
      (match entry with
        | some entry => found.insert key entry.payload
        | none => found) := by
  have hold {k : String} (hk : k ∈ keys) : ∃ e ∈ more, Fetches e slot k (found.get? k) := by
    obtain ⟨e, he, hfetched⟩ := h.asked hk
    exact ⟨e, hle.mem he, hfetched⟩
  cases entry with
  | none =>
    refine ⟨fun {k} hk => ?_, fun {k} hk => h.silent fun hmem => hk (List.mem_append_left _ hmem)⟩
    by_cases hmem : k ∈ keys
    · exact hold hmem
    · rcases List.mem_append.mp hk with hk | hk
      · exact absurd hk hmem
      · obtain rfl := List.mem_singleton.mp hk
        rw [h.silent hmem]
        exact hentry
  | some entry =>
    refine ⟨fun {k} hk => ?_, fun {k} hk => ?_⟩
    · rw [Table.get?_insert]
      split
      · rename_i heq
        subst heq
        exact hentry
      · rename_i hne
        rcases List.mem_append.mp hk with hk | hk
        · exact hold hk
        · exact absurd (List.mem_singleton.mp hk).symm hne
    · obtain ⟨hold, hnew⟩ := not_or.mp (mt List.mem_append.mpr hk)
      rw [Table.get?_insert, if_neg fun heq => hnew (List.mem_singleton.mpr heq.symm)]
      exact h.silent hold

section
variable {stack : Stack} {work : Work} {now : Account}

theorem accounts_fetchEach (hfree : now.Free) (tier : Tier) (keys : List String) {done : List String}
    {found : Table Bytes} (hfound : Reported now.told tier.slot done found) :
    Accounts stack work noKey now (Stack.fetchEach tier found keys : CacheProc ScriptedLoader _)
      fun later result => ∀ table, result = .ok table →
        Reported later.told tier.slot (done ++ keys) table := by
  induction keys generalizing now found done with
  | nil =>
    refine accounts_pure ?_
    rintro table ⟨⟩
    exact (List.append_nil done).symm ▸ hfound
  | cons key keys ih =>
    refine (accounts_getFrom hfree tier).bind fun mid result hmid hfetched => ?_
    cases result with
    | error e => exact accounts_pure (by simp)
    | ok entry =>
      have hnext := ih (hmid.free hfree) (hfound.next hmid.earlier (hfetched entry rfl))
      simp only [List.append_assoc, List.singleton_append] at hnext
      cases entry with
      | none => exact hnext
      | some entry => exact hnext

theorem accounts_fetch (hfree : now.Free) (tier : Tier) (keys : List String) :
    Accounts stack work noKey now (Stack.fetch tier keys : CacheProc ScriptedLoader _)
      fun later result => ∀ table, result = .ok table →
        ∀ key ∈ keys, ∃ e ∈ later.told, Fetches e tier.slot key (table.get? key) := by
  unfold Stack.fetch
  split
  · have hmget : Accounts stack work noKey now
        (mgetFrom tier keys : CacheProc ScriptedLoader _) _ :=
      accounts_ask rfl hfree trivial fun _ h => h
    refine hmget.bind fun mid result hmid htold => ?_
    cases result with
    | error e => exact accounts_pure (by simp)
    | ok batch =>
      refine accounts_pure ?_
      rintro table ⟨⟩ key hk
      exact ⟨_, htold ▸ List.mem_append_right _ List.mem_cons_self, .mget hk⟩
  · have hnone : Reported now.told tier.slot [] {} := ⟨fun hk => absurd hk List.not_mem_nil, fun _ => rfl⟩
    refine (accounts_fetchEach hfree tier keys hnone).mono ?_
    exact fun later result h table hresult key hk => (h table hresult).asked hk

-- ---------------------------------------------------------------------------
-- Sorting its answer
-- ---------------------------------------------------------------------------

/-- The keys are sorted by what was found under them: those with a value are hits and are to be
copied, the others stay pending. -/
structure Stack.Sorted.Sorts (stack : Stack) (found hits : Table Bytes) (keys : List String)
    (sorted : Stack.Sorted) : Prop where
  hits {key : String} {bytes : Bytes} : sorted.hits.get? key = some bytes →
    hits.get? key = some bytes ∨ key ∈ keys ∧ ∃ payload value,
      found.get? (stack.fullKey key) = some payload ∧
      Record.decode payload = some (.positive value) ∧ bytes = (Record.positive value).value
  promoted {key : String} {payload : Bytes} : sorted.promoted.get? key = some payload →
    ∃ k ∈ keys, key = stack.fullKey k ∧ found.get? key = some payload ∧
      ∃ value, Record.decode payload = some (.positive value)
  pending {key : String} : key ∈ sorted.pending →
    key ∈ keys ∧ ∀ value, (found.get? (stack.fullKey key)).bind Record.decode ≠ some (.positive value)

theorem accounts_sortOne (hfree : now.Free) (tier : Tier) {found hits : Table Bytes}
    {keys : List String} {sorted : Stack.Sorted} (hsorted : sorted.Sorts stack found hits keys)
    {key : String} (hk : key ∈ keys) :
    Accounts stack work noKey now
      (stack.sortOne tier found sorted key : CacheProc ScriptedLoader _)
      fun _ sorted => sorted.Sorts stack found hits keys := by
  have hpending (hnone : ∀ value,
      (found.get? (stack.fullKey key)).bind Record.decode ≠ some (.positive value)) :
      Stack.Sorted.Sorts stack found hits keys { sorted with pending := sorted.pending ++ [key] } := by
    refine ⟨hsorted.hits, hsorted.promoted, fun hmem => ?_⟩
    rcases List.mem_append.mp hmem with hmem | hmem
    · exact hsorted.pending hmem
    · obtain rfl := List.mem_singleton.mp hmem
      exact ⟨hk, hnone⟩
  unfold Stack.sortOne
  cases hget : found.get? (stack.fullKey key) with
  | none => exact accounts_pure (hpending (by simp [hget]))
  | some payload =>
    simp only
    cases hdecode : Record.decode payload with
    | none =>
      refine (accounts_notice hfree _).bind fun _ _ _ _ => accounts_pure (hpending ?_)
      simp [hget, hdecode]
    | some record =>
      cases record with
      | negative =>
        refine (accounts_count hfree _).bind fun _ _ _ _ => accounts_pure (hpending ?_)
        simp [hget, hdecode]
      | positive value =>
        refine (accounts_count hfree _).bind fun _ _ _ _ => accounts_pure ⟨?_, ?_, hsorted.pending⟩
        · intro k bytes hbytes
          rw [Table.get?_insert] at hbytes
          split at hbytes
          · rename_i heq
            cases hbytes
            exact .inr ⟨heq ▸ hk, payload, value, heq ▸ hget, hdecode, rfl⟩
          · exact hsorted.hits hbytes
        · intro k payload' hpayload
          rw [Table.get?_insert] at hpayload
          split at hpayload
          · rename_i heq
            cases hpayload
            exact ⟨key, hk, heq.symm, heq ▸ hget, value, hdecode⟩
          · exact hsorted.promoted hpayload

theorem accounts_sortAll (hfree : now.Free) (tier : Tier) {found hits : Table Bytes}
    {all keys : List String} (hkeys : keys ⊆ all) {sorted : Stack.Sorted}
    (hsorted : sorted.Sorts stack found hits all) :
    Accounts stack work noKey now
      (stack.sortAll tier found sorted keys : CacheProc ScriptedLoader _)
      fun _ sorted => sorted.Sorts stack found hits all := by
  induction keys generalizing now sorted with
  | nil => exact accounts_pure hsorted
  | cons key keys ih =>
    obtain ⟨hk, hrest⟩ := List.cons_subset.mp hkeys
    refine (accounts_sortOne hfree tier hsorted hk).bind fun mid sorted hmid hsorted => ?_
    exact ih (hmid.free hfree) hrest hsorted

-- ---------------------------------------------------------------------------
-- Copying upwards
-- ---------------------------------------------------------------------------

def keysOf (items : Table Bytes) : String → Prop := fun key => ∃ payload, items.get? key = some payload

def Promotable (stack : Stack) (told : List CacheExchange) (above : List Tier) (items : Table Bytes) :
    Prop :=
  ∀ key payload, items.get? key = some payload → Sighted stack told key payload above ∧
    ∃ value, Record.decode payload = some (.positive value)

theorem Promotable.later {told told' : List CacheExchange} {above : List Tier} {items : Table Bytes}
    (h : Promotable stack told above items) (hle : told <+: told') :
    Promotable stack told' above items :=
  fun key payload hget => (h key payload hget).imp_left fun h => h.later hle

theorem Promotable.justified {told : List CacheExchange} {above : List Tier} {items : Table Bytes}
    (h : Promotable stack told above items) {tier : Tier} (htier : tier ∈ above) {key : String}
    {payload : Bytes} (hmem : (key, payload) ∈ items.rows) :
    Justified stack told work tier.slot key payload stack.settings.defaultTtl := by
  obtain ⟨hsighted, value, hdecode⟩ := h key payload (Table.get?_eq_some_iff.mpr hmem)
  exact .copied hsighted htier hdecode

theorem accounts_writeItems (hfree : now.Free) {above : List Tier} {items : Table Bytes}
    (h : Promotable stack now.told above items) {tier : Tier} (htier : tier ∈ above)
    {rows : List (String × Bytes)} (hrows : rows ⊆ items.rows) (last : Except CacheError Unit) :
    Accounts stack work (keysOf items) now
      (Stack.writeItems tier stack.settings.defaultTtl last rows : CacheProc ScriptedLoader _)
      fun _ _ => True := by
  induction rows generalizing now last with
  | nil => exact accounts_pure trivial
  | cons row rows ih =>
    obtain ⟨key, payload⟩ := row
    obtain ⟨hrow, hrest⟩ := List.cons_subset.mp hrows
    have hset : Accounts stack work (keysOf items) now
        (setIn tier key payload stack.settings.defaultTtl : CacheProc ScriptedLoader _) _ :=
      accounts_setIn hfree (h.justified htier hrow) ⟨payload, Table.get?_eq_some_iff.mpr hrow⟩
    refine hset.bind fun mid result hmid _ => ?_
    cases result <;> exact ih (hmid.free hfree) (h.later hmid.earlier) hrest _

theorem accounts_backfillAll (hfree : now.Free) {above tiers : List Tier} {items : Table Bytes}
    (h : Promotable stack now.told above items) (htiers : tiers ⊆ above) :
    Accounts stack work (keysOf items) now
      (stack.backfillAll items tiers : CacheProc ScriptedLoader Unit) fun _ _ => True := by
  induction tiers generalizing now with
  | nil => exact accounts_pure trivial
  | cons tier rest ih =>
    obtain ⟨htier, hrest⟩ := List.cons_subset.mp htiers
    have hwrite : Accounts stack work (keysOf items) now
        (if tier.batched then msetIn tier items stack.settings.defaultTtl
          else Stack.writeItems tier stack.settings.defaultTtl (.ok ()) items.rows :
          CacheProc ScriptedLoader _) fun _ _ => True := by
      split
      · refine (accounts_ask (r := .layer tier.slot (.mset items stack.settings.defaultTtl)) rfl hfree
          (fun key payload hmem => h.justified htier hmem) ?_).mono fun _ _ _ => trivial
        rintro key ⟨payload, hmem⟩
        exact ⟨payload, Table.get?_eq_some_iff.mpr hmem⟩
      · exact accounts_writeItems hfree h htier (List.Subset.refl _) _
    refine hwrite.bind fun mid result hmid _ => ?_
    have hfree := hmid.free hfree
    have hgo {late : Account} (hlate : mid.Before (keysOf items) late) :=
      ih (hlate.free hfree) (h.later (hmid.trans hlate).earlier) hrest
    cases result <;> exact (accounts_notice hfree _).bind fun _ _ hlate _ => hgo hlate

-- ---------------------------------------------------------------------------
-- Reading a batch
-- ---------------------------------------------------------------------------

def Hits (stack : Stack) (told : List CacheExchange) (hits : Table Bytes) : Prop :=
  ∀ key bytes, hits.get? key = some bytes → ∃ payload above value,
    Sighted stack told (stack.fullKey key) payload above ∧
    Record.decode payload = some (.positive value) ∧ bytes = (Record.positive value).value

theorem Hits.later {told told' : List CacheExchange} {hits : Table Bytes} (h : Hits stack told hits)
    (hle : told <+: told') : Hits stack told' hits := by
  intro key bytes hget
  obtain ⟨payload, above, value, hsighted, hvalue⟩ := h key bytes hget
  exact ⟨payload, above, value, hsighted.later hle, hvalue⟩

/-- What a layer has told of the pending keys, of which the layers above have no value. -/
structure Searched (stack : Stack) (told : List CacheExchange) (above : List Tier) (tier : Tier)
    (pending : List String) (found : Table Bytes) : Prop where
  scanned {key : String} : key ∈ pending → Scanned told (stack.fullKey key) above
  fetched {key : String} : key ∈ pending → ∃ e ∈ told,
    Fetches e tier.slot (stack.fullKey key) (found.get? (stack.fullKey key))

namespace Searched

variable {told : List CacheExchange} {above below : List Tier} {tier : Tier}
  {pending : List String} {found hits : Table Bytes} {sorted : Stack.Sorted} {key : String}

theorem sighted (h : Searched stack told above tier pending found)
    (htiers : stack.tiers = above ++ tier :: below) (hk : key ∈ pending) {payload : Bytes}
    (hget : found.get? (stack.fullKey key) = some payload) :
    Sighted stack told (stack.fullKey key) payload above :=
  ⟨tier, below, told, htiers, List.prefix_rfl, h.scanned hk, hget ▸ h.fetched hk⟩

theorem found_hits (h : Searched stack told above tier pending found)
    (htiers : stack.tiers = above ++ tier :: below) (hsorted : sorted.Sorts stack found hits pending)
    (hhits : Hits stack told hits) : Hits stack told sorted.hits := by
  intro key bytes hget
  rcases hsorted.hits hget with hold | ⟨hk, payload, value, hget, hvalue⟩
  · exact hhits key bytes hold
  · exact ⟨payload, above, value, h.sighted htiers hk hget, hvalue⟩

theorem promotable (h : Searched stack told above tier pending found)
    (htiers : stack.tiers = above ++ tier :: below) (hsorted : sorted.Sorts stack found hits pending) :
    Promotable stack told above sorted.promoted := by
  intro key payload hget
  obtain ⟨k, hk, rfl, hget, hvalue⟩ := hsorted.promoted hget
  exact ⟨h.sighted htiers hk hget, hvalue⟩

theorem passed (h : Searched stack told above tier pending found)
    (hsorted : sorted.Sorts stack found hits pending) (hk : key ∈ sorted.pending) :
    Scanned told (stack.fullKey key) (above ++ [tier]) := by
  obtain ⟨hk, hnone⟩ := hsorted.pending hk
  obtain ⟨e, he, hfound⟩ := h.fetched hk
  exact (h.scanned hk).pass he hfound hnone

end Searched

theorem Stack.Sorted.Sorts.unpromoted {found hits : Table Bytes} {pending : List String}
    {sorted : Stack.Sorted} (h : sorted.Sorts stack found hits pending) {key : String}
    (hk : key ∈ sorted.pending) : ¬keysOf sorted.promoted (stack.fullKey key) := by
  rintro ⟨payload, hget⟩
  obtain ⟨k, -, hkey, hget, value, hdecode⟩ := h.promoted hget
  exact (h.pending hk).2 value (by simp [hget, hdecode])

theorem accounts_fetchFrom (hfree : now.Free) {above below : List Tier}
    (htiers : stack.tiers = above ++ below) {hits : Table Bytes} (hhits : Hits stack now.told hits)
    {pending : List String} (hscan : ∀ key ∈ pending, Scanned now.told (stack.fullKey key) above) :
    Accounts stack work anyKey now
      (stack.fetchFrom hits pending above below : CacheProc ScriptedLoader _)
      fun later result => ∀ batch, result = .ok batch → Hits stack later.told batch.hits := by
  induction below generalizing now hits pending above with
  | nil =>
    refine (accounts_notice hfree _).bind fun mid _ hmid _ => accounts_pure ?_
    rintro batch ⟨⟩
    exact hhits.later hmid.earlier
  | cons tier below ih =>
    have hrest : stack.tiers = (above ++ [tier]) ++ below := by simpa using htiers
    unfold Stack.fetchFrom
    split
    · refine (accounts_notice hfree _).bind fun mid _ hmid _ => accounts_pure ?_
      rintro batch ⟨⟩
      exact hhits.later hmid.earlier
    · refine (accounts_fetch hfree tier _).quiet fun mid result hmid hfetched => ?_
      cases result with
      | error e => exact accounts_pure (by simp)
      | ok found =>
        have hsearched : Searched stack mid.told above tier pending found :=
          ⟨fun hk => hmid.scanned id (hscan _ hk), fun hk => hfetched found rfl _ (List.mem_map_of_mem hk)⟩
        have hstart : Stack.Sorted.Sorts stack found hits pending { hits := hits } :=
          ⟨.inl, fun hget => (by cases hget), fun hk => absurd hk List.not_mem_nil⟩
        refine (accounts_sortAll (hmid.free hfree) tier (List.Subset.refl _) hstart).quiet ?_
        intro late sorted hlate hsorted
        have hfree := hlate.free (hmid.free hfree)
        have hhits := (hsearched.found_hits htiers hsorted (hhits.later hmid.earlier)).later hlate.earlier
        have hscan {key : String} (hk : key ∈ sorted.pending) :
            Scanned late.told (stack.fullKey key) (above ++ [tier]) :=
          hlate.scanned id (hsearched.passed hsorted hk)
        simp only
        split
        · exact ih hfree hrest hhits fun key hk => hscan hk
        · have hpromotable := (hsearched.promotable htiers hsorted).later hlate.earlier
          refine (accounts_backfillAll hfree hpromotable (List.Subset.refl _)).seq ?_
          intro last _ hlast _
          refine ih (hlast.free hfree) hrest (hhits.later hlast.earlier) fun key hk => ?_
          exact hlast.scanned (hsorted.unpromoted hk) (hscan hk)

theorem accounts_mget (hfree : now.Free) (hnone : now.told = []) (keys : List String) :
    Accounts stack work anyKey now (stack.mget keys : CacheProc ScriptedLoader _)
      fun later result => ∀ batch, result = .ok batch → Hits stack later.told batch.hits := by
  have hempty : Hits stack now.told {} := fun key bytes h => by cases h
  unfold Stack.mget
  simp only
  split
  · refine accounts_pure ?_
    rintro batch ⟨⟩
    exact hempty
  · refine accounts_fetchFrom hfree rfl hempty fun key _ => scanned_nil ?_
    rw [hnone]
    exact List.forall_mem_nil _

-- ---------------------------------------------------------------------------
-- Writing a batch
-- ---------------------------------------------------------------------------

def RowsOf (stack : Stack) (items : Table Bytes) (rows : List (String × Bytes × Duration)) : Prop :=
  ∀ row ∈ rows, ∃ key value, items.get? key = some value ∧ row.1 = stack.fullKey key ∧
    row.2.1 = Record.encode value ∧ (stack.Usable → row.2.2.isZero = false)

theorem accounts_drawRows (hfree : now.Free) {items : Table Bytes} {ttl : Duration}
    (hlasting : stack.Usable → ttl.isZero = false) {chosen : List (String × Bytes)}
    (hchosen : chosen ⊆ items.rows) :
    Accounts stack work anyKey now (stack.drawRows ttl chosen : CacheProc ScriptedLoader _)
      fun _ rows => RowsOf stack items rows := by
  induction chosen generalizing now with
  | nil => exact accounts_pure (List.forall_mem_nil _)
  | cons item rest ih =>
    obtain ⟨key, value⟩ := item
    obtain ⟨hitem, hrest⟩ := List.cons_subset.mp hchosen
    refine (accounts_jittered hfree hlasting).bind fun mid jittered hmid hjittered => ?_
    refine (ih (hmid.free hfree) hrest).bind fun late rows _ hrows => accounts_pure ?_
    refine List.forall_mem_cons.mpr ⟨?_, hrows⟩
    exact ⟨key, value, Table.get?_eq_some_iff.mpr hitem, rfl, rfl, hjittered⟩

end

section
variable {stack : Stack} {now : Account} {items : Table Bytes} {ttl : Duration}

theorem accounts_writeRows (hfree : now.Free) (tier : Tier) {rows : List (String × Bytes × Duration)}
    (hrows : RowsOf stack items rows) (first : Except CacheError Unit) :
    Accounts stack (.mset items ttl) anyKey now
      (Stack.writeRows tier first rows : CacheProc ScriptedLoader _) fun _ _ => True := by
  induction rows generalizing now first with
  | nil => exact accounts_pure trivial
  | cons row rows ih =>
    obtain ⟨fullKey, payload, ttl⟩ := row
    obtain ⟨⟨key, value, hget, hkey, hpayload, hlasting⟩, hrest⟩ := List.forall_mem_cons.mp hrows
    simp only at hkey hpayload hlasting
    subst hkey hpayload
    refine (accounts_setIn hfree (.brought (.inl (.mset hget)) hlasting) trivial).bind ?_
    intro mid result hmid _
    have hfree := hmid.free hfree
    cases result with
    | ok _ => exact ih hfree hrest _
    | error _ => exact (accounts_notice hfree _).bind fun _ _ hlate _ => ih (hlate.free hfree) hrest _

theorem accounts_writeRowsEach (hfree : now.Free) {rows : List (String × Bytes × Duration)}
    (hrows : RowsOf stack items rows) (first : Except CacheError Unit) (tiers : List Tier) :
    Accounts stack (.mset items ttl) anyKey now
      (Stack.writeRowsEach rows first tiers : CacheProc ScriptedLoader _) fun _ _ => True := by
  induction tiers generalizing now first with
  | nil => exact accounts_pure trivial
  | cons tier rest ih =>
    exact (accounts_writeRows hfree tier hrows first).bind fun _ _ hmid _ => ih (hmid.free hfree) _

theorem accounts_mset (hfree : now.Free) :
    Accounts stack (.mset items ttl) anyKey now
      (stack.mset items ttl : CacheProc ScriptedLoader _) fun _ _ => True := by
  have hlasting (hstack : stack.Usable) : (stack.resolveTtl ttl).isZero = false :=
    Duration.isZero_orElse hstack.lasting
  unfold Stack.mset
  split
  · exact accounts_pure trivial
  · refine (accounts_drawRows hfree hlasting (List.Subset.refl _)).bind fun mid rows hmid hrows => ?_
    exact accounts_writeRowsEach (hmid.free hfree) hrows _ _

end

-- ---------------------------------------------------------------------------
-- Reading a batch through a loader
-- ---------------------------------------------------------------------------

section
variable {stack : Stack} {now : Account} {keys asked : List String} {loader : ScriptedLoader}
  {options : RememberOptions}

def ValuesObtained (stack : Stack) (work : Work) (told : List CacheExchange) (values : Table Bytes) :
    Prop :=
  ∀ key value, values.get? key = some value → Obtained stack told work key (some value)

theorem ValuesObtained.later {work : Work} {told told' : List CacheExchange} {values : Table Bytes}
    (h : ValuesObtained stack work told values) (hle : told <+: told') :
    ValuesObtained stack work told' values :=
  fun key value hget => (h key value hget).later hle

theorem Hits.obtained {work : Work} {told : List CacheExchange} {hits : Table Bytes}
    (h : Hits stack told hits) : ValuesObtained stack work told hits := by
  intro key bytes hget
  obtain ⟨payload, above, value, hsighted, hdecode, rfl⟩ := h key bytes hget
  exact .sighted hsighted hdecode

theorem accounts_storeLoaded (hfree : now.Free) {items : Table Loaded}
    (hloaded : ⟨.loadMany loader asked, .ok items⟩ ∈ now.told) (ttl : Duration) {hits : Table Bytes}
    (hhits : ValuesObtained stack (.mremember keys loader options) now.told hits)
    {missing : List String} (hmissing : missing ⊆ asked) :
    Accounts stack (.mremember keys loader options) anyKey now
      (stack.storeLoaded items ttl hits missing : CacheProc ScriptedLoader _)
      fun later values => ValuesObtained stack (.mremember keys loader options) later.told values := by
  induction missing generalizing now hits with
  | nil => exact accounts_pure hhits
  | cons key rest ih =>
    obtain ⟨hk, hrest⟩ := List.cons_subset.mp hmissing
    unfold Stack.storeLoaded
    cases hget : items.get? key with
    | some item =>
      have hlearned : Learned (.mremember keys loader options) ⟨.loadMany loader asked, .ok items⟩ key
          (some item.value) := .loadedMany hk hget
      refine (accounts_set hfree (.inr ⟨_, hloaded, hlearned⟩) _).bind fun mid result hmid _ => ?_
      have hfree := hmid.free hfree
      have hinsert {late : Account} (hlate : now.Before anyKey late) :
          ValuesObtained stack (.mremember keys loader options) late.told
            (hits.insert key item.value) := by
        intro k value hget
        rw [Table.get?_insert] at hget
        split at hget
        · rename_i heq
          subst heq
          cases hget
          exact .learned (hlate.earlier.mem hloaded) hlearned
        · exact (hhits k value hget).later hlate.earlier
      have hgo {late : Account} (hlate : now.Before anyKey late) (hfree : late.Free) :=
        ih hfree (hlate.earlier.mem hloaded) (hinsert hlate) hrest
      cases result with
      | ok _ => exact hgo hmid hfree
      | error _ =>
        exact (accounts_notice hfree _).bind fun _ _ hlate _ => hgo (hmid.trans hlate) (hlate.free hfree)
    | none =>
      have hlearned : Learned (.mremember keys loader options) ⟨.loadMany loader asked, .ok items⟩ key
          none := .leftOut hk hget
      refine (accounts_setNegative hfree (.inr ⟨_, hloaded, hlearned⟩)).bind fun mid result hmid _ => ?_
      have hfree := hmid.free hfree
      have hgo {late : Account} (hlate : now.Before anyKey late) (hfree : late.Free) :=
        ih hfree (hlate.earlier.mem hloaded) (hhits.later hlate.earlier) hrest
      cases result with
      | ok _ => exact hgo hmid hfree
      | error _ =>
        exact (accounts_notice hfree _).bind fun _ _ hlate _ => hgo (hmid.trans hlate) (hlate.free hfree)

theorem accounts_mremember (hfree : now.Free) (hnone : now.told = []) :
    Accounts stack (.mremember keys loader options) anyKey now (stack.mremember keys loader options)
      fun later result => ∀ values, result = .ok values →
        ValuesObtained stack (.mremember keys loader options) later.told values := by
  refine (accounts_mget hfree hnone keys).bind fun mid result hmid hhits => ?_
  have hfree := hmid.free hfree
  cases result with
  | error e => exact accounts_pure (by simp)
  | ok batch =>
    have hobtained : ValuesObtained stack (.mremember keys loader options) mid.told batch.hits :=
      (hhits batch rfl).obtained
    simp only
    split
    · refine accounts_pure ?_
      rintro values ⟨⟩
      exact hobtained
    · refine (accounts_count hfree _).bind fun late _ hlate _ => ?_
      have hfree := hlate.free hfree
      have hload : Accounts stack (.mremember keys loader options) anyKey late
          (loadMany loader batch.missing) _ :=
        accounts_ask rfl hfree trivial fun _ _ => trivial
      refine hload.bind fun last reply hlast htold => ?_
      have hfree := hlast.free hfree
      cases reply with
      | error e => exact accounts_pure (by simp)
      | ok items =>
        have hloaded : ⟨.loadMany loader batch.missing, .ok items⟩ ∈ last.told := by simp [htold]
        refine (accounts_storeLoaded hfree hloaded _ (hobtained.later (hlate.trans hlast).earlier)
          (List.Subset.refl _)).bind fun stored values hstored hvalues => ?_
        have hdone {end' : Account} (hend : stored.Before anyKey end') (result : Table Bytes)
            (hresult : Except.ok (ε := CacheError) values = .ok result) :
            ValuesObtained stack (.mremember keys loader options) end'.told result := by
          cases hresult
          exact hvalues.later hend.earlier
        split
        · exact accounts_pure (hdone (.refl _ _))
        · refine (accounts_notice (hstored.free hfree) _).bind fun _ _ hend _ => ?_
          exact accounts_pure (hdone hend)

end

-- ---------------------------------------------------------------------------
-- Whole calls
-- ---------------------------------------------------------------------------

/-- The call has left all flights, and all that its answer tells has been obtained. -/
def AnswersObtained (stack : Stack) (work : Work) (later : Account) (answer : Answer) : Prop :=
  later.stance = .outside ∧
  ∀ key content, Tells work answer key content → Obtained stack later.told work key content

section
variable {stack : Stack} {work : Work} {now : Account}

theorem Accounts.answersNothing {α : Type} {p : CacheProc ScriptedLoader α} {post : Account → α → Prop}
    (h : Accounts stack work anyKey now p post) (hout : now.stance = .outside)
    {f : α → CacheProc ScriptedLoader Answer}
    (hf : ∀ a, ∃ answer, f a = pure answer ∧ ∀ key content, ¬Tells work answer key content) :
    (p >>= f).Keeps (accounting stack work) (AnswersObtained stack work) now := by
  refine h.andThen fun mid a hmid _ => ?_
  obtain ⟨answer, hanswer, hnothing⟩ := hf a
  rw [hanswer]
  exact ⟨hmid.stance.trans hout, fun key content htells => absurd htells (hnothing key content)⟩

theorem Backed.obtained_hit {told : List CacheExchange} {key : String} {value : Bytes}
    (h : Backed stack told (stack.fullKey key) (.hit value)) :
    Obtained stack told work key (some value) := by
  cases h with
  | hit h hdecode => exact .sighted h hdecode

theorem Backed.obtained_negative {told : List CacheExchange} {key : String}
    (h : Backed stack told (stack.fullKey key) .negative) : Obtained stack told work key none := by
  cases h with
  | negative h hdecode => exact .sighted h hdecode

/-- Every request of a call is accounted for, and so is what it answers. -/
theorem accounts_work (stack : Stack) (work : Work) :
    (Session.cacheWork (.stacked stack) work).Keeps (accounting stack work)
      (AnswersObtained stack work) ⟨[], .outside⟩ := by
  have hfree : Account.Free ⟨[], .outside⟩ := .inl rfl
  have hnone (key : String) : Untouched (stack.fullKey key) [] := List.forall_mem_nil _
  cases work with
  | get key =>
    refine (accounts_get hfree (hnone key)).andThen fun later result hlater hbacked => ?_
    cases result with
    | error e => exact ⟨hlater.stance, fun _ _ htells => by cases htells⟩
    | ok found =>
      refine ⟨hlater.stance, fun _ _ htells => ?_⟩
      cases htells with
      | hit => exact (hbacked _ rfl).obtained_hit
      | negative => exact (hbacked _ rfl).obtained_negative
  | getValue key =>
    have hvalue : Accounts stack (.getValue key) anyKey ⟨[], .outside⟩
        (Cache.getValue (.stacked stack) key : CacheProc ScriptedLoader Outcome)
        (ReturnsObtained stack (.getValue key) key) := by
      refine (accounts_get hfree (hnone key)).bind fun later result hlater hbacked => ?_
      cases result with
      | error e => exact accounts_pure (by rintro value ⟨⟩)
      | ok found =>
        cases found with
        | hit value =>
          refine accounts_pure ?_
          rintro _ ⟨⟩
          exact (hbacked _ rfl).obtained_hit
        | _ => exact accounts_pure (by rintro value ⟨⟩)
    refine hvalue.andThen fun later outcome hlater hobtained => ⟨hlater.stance, ?_⟩
    intro k content htells
    cases outcome with
    | error e => cases htells
    | ok value =>
      cases htells
      exact hobtained value rfl
  | set key value ttl =>
    refine (accounts_set hfree (.inl .set) ttl).answersNothing rfl fun result => ⟨_, rfl, ?_⟩
    rintro _ _ ⟨⟩
  | delete key =>
    refine (accounts_deleteEach hfree _ _).answersNothing rfl fun result => ⟨_, rfl, ?_⟩
    rintro _ _ ⟨⟩
  | mset items ttl =>
    refine (accounts_mset hfree).answersNothing rfl fun result => ⟨_, rfl, ?_⟩
    rintro _ _ ⟨⟩
  | close =>
    refine (accounts_close hfree).answersNothing rfl fun result => ⟨_, rfl, ?_⟩
    rintro _ _ ⟨⟩
  | remember key loader options =>
    refine (accounts_remember rfl (hnone key)).bind ?_
    rintro later outcome ⟨hout, hobtained⟩
    refine ⟨hout, fun k content htells => ?_⟩
    cases outcome with
    | error e => cases htells
    | ok value =>
      cases htells
      exact hobtained value rfl
  | mget keys =>
    refine (accounts_mget hfree rfl keys).andThen fun later result hlater hhits => ?_
    cases result with
    | error e => exact ⟨hlater.stance, fun _ _ htells => by cases htells⟩
    | ok found =>
      refine ⟨hlater.stance, fun key content htells => ?_⟩
      cases htells with
      | batch h => exact (hhits found rfl).obtained key _ h
  | mremember keys loader options =>
    refine (accounts_mremember hfree rfl).andThen fun later result hlater hvalues => ?_
    cases result with
    | error e => exact ⟨hlater.stance, fun _ _ htells => by cases htells⟩
    | ok values =>
      refine ⟨hlater.stance, fun key content htells => ?_⟩
      cases htells with
      | rememberedMany h => exact hvalues values rfl key _ h
  | _ => exact ⟨rfl, fun _ _ htells => by cases htells⟩

end

end StackedCache
