import StackedCache.Proofs.BatchTraces
import StackedCache.Proofs.Copies

/-!
# Batch lookups

A batch lookup asks each layer for the keys that no layer above it has a value
for, all at once or one after the other, and copies what it finds upwards. The
first layer that fails to answer ends it.
-/

namespace StackedCache

open Simulation CacheProc Storage

-- ---------------------------------------------------------------------------
-- Reading one layer
-- ---------------------------------------------------------------------------

theorem Storage.mget_answer (storage : Storage) (now : Instant) (slot : Nat) (keys : List String) :
    ∃ batch, (storage.perform now slot (.mget keys)).1 = .ok batch ∧ ∀ key, batch.hits.get? key =
      if key ∈ keys then (storage.items slot).visible? key now else none := by
  unfold perform items
  cases storage.backing slot with
  | memory n =>
    refine ⟨_, rfl, fun key => ?_⟩
    simp only [Memory.perform, Memory.lookupAll_answer, BatchHits.ofFound_hits, Memory.seen,
      Option.map_map]
    rfl
  | network layer n =>
    obtain ⟨batch, hrun, hbatch⟩ := layer.run_mget now (storage.stores n) keys
    exact ⟨batch, by simp only [hrun], hbatch⟩

namespace Stack

section
variable {faults : Faults} {tier : Tier}

theorem consults_getFrom {key : String} (h : faults.error? tier.slot (.get key) = none) (scene : Scene) :
    ∃ found after, Consults faults (getFrom tier key) scene [(tier.slot, .get key)] (.ok found) after ∧
      scene.Alters (fun _ _ => .kept) after ∧ found.map Entry.payload = scene.shown tier.slot key := by
  obtain ⟨after, hgoes, halters⟩ := consults_spared h scene
  obtain ⟨⟨found, hreply, hfound⟩, -⟩ := get_spec scene.storage scene.now tier.slot key
  rw [hreply] at hgoes
  refine ⟨_, after, hgoes, halters.congr fun _ _ => ite_self _, ?_⟩
  rw [Option.map_map]
  exact hfound

theorem consults_mgetFrom {keys : List String} (h : faults.error? tier.slot (.mget keys) = none)
    (scene : Scene) :
    ∃ batch after, Consults faults (mgetFrom tier keys) scene [(tier.slot, .mget keys)] (.ok batch) after ∧
      scene.Alters (fun _ _ => .kept) after ∧
      ∀ key ∈ keys, batch.hits.get? key = scene.shown tier.slot key := by
  obtain ⟨after, hgoes, halters⟩ := consults_spared h scene
  obtain ⟨batch, hreply, hbatch⟩ := scene.storage.mget_answer scene.now tier.slot keys
  rw [hreply] at hgoes
  exact ⟨batch, after, hgoes, halters.congr fun _ _ => ite_self _,
    fun key hkey => (hbatch key).trans (if_pos hkey)⟩

theorem consults_fetchEach (faults : Faults) (tier : Tier) (scene : Scene) (keys : List String)
    (found : Table Bytes) :
    match faults.first? (keys.map fun key => (tier.slot, .get key)) with
    | some e => ∃ asked after, asked <+: keys ∧
      Consults faults (fetchEach tier found keys) scene (asked.map fun key => (tier.slot, .get key))
        (.error e) after ∧
      scene.Alters (fun _ _ => .kept) after
    | none => ∃ table after,
      Consults faults (fetchEach tier found keys) scene (keys.map fun key => (tier.slot, .get key))
        (.ok table) after ∧
      scene.Alters (fun _ _ => .kept) after ∧
      ∀ key, table.get? key =
        (if key ∈ keys then scene.shown tier.slot key else none).or (found.get? key) := by
  induction keys generalizing scene found with
  | nil => exact ⟨found, scene, Proc.goes_pure _, .refl, fun _ => rfl⟩
  | cons key keys ih =>
    rw [List.map_cons, Faults.first?, List.findSome?_cons]
    cases herror : faults.error? tier.slot (.get key) with
    | some e =>
      refine ⟨[key], scene, List.prefix_append [key] keys, ?_, .refl⟩
      exact (consults_fails herror scene).then_unseen (Proc.goes_pure _)
    | none =>
      obtain ⟨entry, mid, hget, hkept, hentry⟩ := consults_getFrom herror scene
      have hshown (k : String) : mid.shown tier.slot k = scene.shown tier.slot k :=
        hkept.shown_kept rfl
      have hrest := ih mid (entry.elim found fun entry => found.insert key entry.payload)
      unfold Faults.first? at hrest
      simp only
      split at hrest
      · obtain ⟨asked, after, hasked, hgoes, hkept'⟩ := hrest
        refine ⟨key :: asked, after, List.cons_prefix_cons.mpr ⟨rfl, hasked⟩, hget.bind ?_,
          hkept'.following hkept⟩
        cases entry <;> exact hgoes
      · obtain ⟨table, after, hgoes, hkept', htable⟩ := hrest
        refine ⟨table, after, hget.bind ?_, hkept'.following hkept, fun k => ?_⟩
        · cases entry <;> exact hgoes
        · rw [htable, hshown]
          by_cases hk : k = key
          · subst hk
            rw [← hentry]
            cases entry with
            | none => simp
            | some entry => by_cases hmem : k ∈ keys <;> simp [hmem, Table.get?_insert]
          · cases entry <;> simp [hk, Ne.symm hk, Table.get?_insert]

theorem consults_fetch (faults : Faults) (tier : Tier) (scene : Scene) {keys : List String}
    (hkeys : keys ≠ []) :
    match faults.first? (tier.queries keys) with
    | some e => ∃ queries after, queries <+: tier.queries keys ∧
      Consults faults (fetch tier keys) scene queries (.error e) after ∧
      scene.Alters (fun _ _ => .kept) after
    | none => ∃ found after,
      Consults faults (fetch tier keys) scene (tier.queries keys) (.ok found) after ∧
      scene.Alters (fun _ _ => .kept) after ∧
      ∀ key ∈ keys, found.get? key = scene.shown tier.slot key := by
  unfold Tier.queries fetch
  rw [if_neg hkeys]
  cases tier.batched with
  | true =>
    simp only [↓reduceIte, Faults.first?, List.findSome?_cons, List.findSome?_nil]
    cases herror : faults.error? tier.slot (.mget keys) with
    | some e =>
      refine ⟨_, scene, List.prefix_rfl, ?_, .refl⟩
      exact (consults_fails herror scene).then_unseen (Proc.goes_pure _)
    | none =>
      obtain ⟨batch, after, hgoes, hkept, hbatch⟩ := consults_mgetFrom herror scene
      exact ⟨batch.hits, after, hgoes.then_unseen (Proc.goes_pure _), hkept, hbatch⟩
  | false =>
    have heach := consults_fetchEach faults tier scene keys {}
    simp only [Bool.false_eq_true, ↓reduceIte]
    split at heach
    · obtain ⟨asked, after, hasked, hgoes, hkept⟩ := heach
      exact ⟨_, after, hasked.map _, hgoes, hkept⟩
    · obtain ⟨table, after, hgoes, hkept, htable⟩ := heach
      refine ⟨table, after, hgoes, hkept, fun key hkey => ?_⟩
      rw [htable, if_pos hkey]
      exact Option.or_none

end

-- ---------------------------------------------------------------------------
-- Sorting and copying
-- ---------------------------------------------------------------------------

section
variable {stack : Stack} {faults : Faults}

theorem consults_sortAll (stack : Stack) (faults : Faults) (tier : Tier) (scene : Scene) (found : Table Bytes)
    (sorted : Sorted) (keys : List String) :
    Consults faults (stack.sortAll tier found sorted keys) scene []
      (keys.foldl (Sorted.add stack found) sorted) scene := by
  have hone (sorted : Sorted) (key : String) :
      Consults faults (stack.sortOne tier found sorted key) scene [] (sorted.add stack found key) scene := by
    unfold sortOne Sorted.add sifted
    cases found.get? (stack.fullKey key) with
    | none => exact Proc.goes_pure _
    | some payload =>
      simp only
      match Record.decode payload with
      | none => exact Consults.notice _ (Proc.goes_pure _)
      | some .negative => exact Consults.count _ (Proc.goes_pure _)
      | some (.positive value) => exact Consults.count _ (Proc.goes_pure _)
  induction keys generalizing sorted with
  | nil => exact Proc.goes_pure _
  | cons key keys ih => exact (hone sorted key).bind (ih _)

theorem consults_writeItems (faults : Faults) (tier : Tier) (ttl : Duration) (scene : Scene)
    {rows : List (String × Bytes)} (hrows : (rows.map Prod.fst).Nodup) (last : Except CacheError Unit) :
    ∃ reply after, Consults faults (writeItems tier ttl last rows) scene [] reply after ∧
      scene.Copies faults ttl
        (fun key => (Table.lookup key rows).map fun payload => ([tier.slot], payload)) after := by
  induction rows generalizing scene last with
  | nil => exact ⟨last, scene, Proc.goes_pure _, .refl⟩
  | cons row rows ih =>
    obtain ⟨hnew, hrows⟩ := List.nodup_cons.mp hrows
    obtain ⟨reply, mid, hset, hfirst⟩ := consults_write faults scene tier.slot
      (.set row.1 row.2 ttl) (fun key => if row.1 = key then some row.2 else none) rfl
      fun key => by simp only [LayerOp.change]; split <;> rfl
    obtain ⟨reply', after, hall, hcopies⟩ : ∃ reply' after,
        Consults faults (writeItems tier ttl last (row :: rows)) scene [] reply' after ∧
          mid.Copies faults ttl
            (fun key => (Table.lookup key rows).map fun payload => ([tier.slot], payload)) after := by
      cases reply with
      | ok =>
        obtain ⟨reply', after, hrest, hcopies⟩ := ih mid hrows last
        exact ⟨reply', after, hset.bind hrest, hcopies⟩
      | error e =>
        obtain ⟨reply', after, hrest, hcopies⟩ := ih mid hrows (.error e)
        exact ⟨reply', after, hset.bind hrest, hcopies⟩
    refine ⟨reply', after, hall, hfirst.trans hcopies fun home key c c' hc hc' => ?_⟩
    by_cases hkey : row.1 = key
    · subst hkey
      rw [Table.lookup_eq_none hnew] at hc'
      simpa [Table.lookup] using hc.before_nothing hc'
    · simp only [if_neg hkey] at hc
      simpa [Table.lookup, hkey] using hc.after_nothing hc'

theorem consults_backfillAll (stack : Stack) (faults : Faults) (scene : Scene) (items : Table Bytes)
    (tiers : List Tier) :
    ∃ after, Consults faults (stack.backfillAll items tiers) scene [] () after ∧
      scene.Copies faults stack.settings.defaultTtl
        (fun key => (items.get? key).map fun payload => (tiers.map Tier.slot, payload)) after := by
  induction tiers generalizing scene with
  | nil =>
    refine ⟨scene, Proc.goes_pure _, _, .refl,
      fun _ key => ⟨.inl rfl, fun {slots payload slot} hdue hslot => ?_⟩⟩
    obtain ⟨_, -, hpair⟩ := Option.map_eq_some_iff.mp hdue
    cases hpair
    cases hslot
  | cons tier rest ih =>
    have hwrite : ∃ reply mid, Consults faults (if tier.batched then
          msetIn tier items stack.settings.defaultTtl
        else writeItems tier stack.settings.defaultTtl (.ok ()) items.rows) scene [] reply mid ∧
        scene.Copies faults stack.settings.defaultTtl
          (fun key => (items.get? key).map fun payload => ([tier.slot], payload)) mid := by
      split
      · exact consults_write faults scene tier.slot (.mset items stack.settings.defaultTtl)
          items.get? rfl fun _ => rfl
      · exact consults_writeItems faults tier _ scene items.nodup _
    obtain ⟨reply, mid, hwrite, hfirst⟩ := hwrite
    obtain ⟨after, hrest, hcopies⟩ := ih mid
    refine ⟨after, hwrite.bind ?_, hfirst.trans hcopies fun home key c c' hc hc' => ?_⟩
    · cases reply <;> exact Consults.notice _ hrest
    · cases hget : items.get? key with
      | none =>
        simp only [hget] at hc hc'
        exact hc.after_nothing hc'
      | some payload =>
        simp only [hget] at hc hc'
        exact hc.append hc'

end

-- ---------------------------------------------------------------------------
-- Going down the layers
-- ---------------------------------------------------------------------------

def slots (stack : Stack) : List Nat := stack.tiers.map Tier.slot

def pendingAt (stack : Stack) (scene : Scene) (keys : List String) (above : List Nat) : List String :=
  keys.filter fun key => (scene.origin? (stack.fullKey key) above).isNone

/-- What is asked of a layer below some slots: all that is pending there. -/
def inquiry (stack : Stack) (scene : Scene) (keys : List String) (above : List Nat) (tier : Tier) :
    List (Nat × LayerOp) :=
  tier.queries ((stack.pendingAt scene keys above).map stack.fullKey)

def inquiries (stack : Stack) (scene : Scene) (keys : List String) (above : List Nat) :
    List Tier → List (Nat × LayerOp)
  | [] => []
  | tier :: below =>
    stack.inquiry scene keys above tier ++ stack.inquiries scene keys (above ++ [tier.slot]) below

/-- The payloads of what some slots have for the keys, each with the slots above the one that has it. -/
def promotions (stack : Stack) (scene : Scene) (keys : List String) (slots : List Nat) (full : String) :
    Option (List Nat × Bytes) :=
  if full ∈ keys.map stack.fullKey then
    (scene.origin? full slots).map fun (upper, payload, _) => (upper, payload)
  else none

/-- What has been found and copied when some slots have been passed. -/
structure Passed (stack : Stack) (faults : Faults) (scene : Scene) (keys : List String)
    (above : List Nat) (hits : Table Bytes) (mid : Scene) : Prop where
  hits (key : String) : hits.get? key =
    if key ∈ keys then (scene.origin? (stack.fullKey key) above).map fun found => found.2.2 else none
  copies : scene.Copies faults stack.settings.defaultTtl (stack.promotions scene keys above) mid

section
variable {stack : Stack} {faults : Faults} {scene mid : Scene} {keys : List String} {key full : String}
  {above : List Nat} {slot : Nat} {hits found : Table Bytes}

theorem mem_pendingAt :
    key ∈ stack.pendingAt scene keys above ↔
      key ∈ keys ∧ scene.origin? (stack.fullKey key) above = none := by
  rw [pendingAt, List.mem_filter, Option.isNone_iff_eq_none]

theorem pendingAt_nil (stack : Stack) (scene : Scene) (keys : List String) :
    stack.pendingAt scene keys [] = keys := by
  simp [pendingAt, Scene.origin?]

theorem promotions_pending (h : full ∈ (stack.pendingAt scene keys above).map stack.fullKey) :
    stack.promotions scene keys above full = none := by
  obtain ⟨key, hkey, rfl⟩ := List.mem_map.mp h
  obtain ⟨hkey, hnone⟩ := mem_pendingAt.mp hkey
  rw [promotions, if_pos (List.mem_map_of_mem hkey), hnone]
  rfl

theorem promotions_append (stack : Stack) (scene : Scene) (keys : List String) (above : List Nat)
    (slot : Nat) (full : String) :
    stack.promotions scene keys (above ++ [slot]) full =
      if full ∈ (stack.pendingAt scene keys above).map stack.fullKey then
        (scene.value? slot full).map fun found => (above, found.1)
      else stack.promotions scene keys above full := by
  unfold promotions
  rw [Scene.origin?_append]
  split
  · rename_i hfull
    obtain ⟨key, hkey, rfl⟩ := List.mem_map.mp hfull
    split
    · rename_i hpending
      obtain ⟨key', hkey', heq⟩ := List.mem_map.mp hpending
      cases fullKey_inj.mp heq
      rw [(mem_pendingAt.mp hkey').2]
      cases scene.value? slot (stack.fullKey key) <;> rfl
    · rename_i hpending
      cases horigin : scene.origin? (stack.fullKey key) above with
      | some origin => rfl
      | none => exact absurd (List.mem_map_of_mem (mem_pendingAt.mpr ⟨hkey, horigin⟩)) hpending
  · rename_i hfull
    rw [if_neg fun hpending => hfull ?_]
    obtain ⟨key, hkey, rfl⟩ := List.mem_map.mp hpending
    exact List.mem_map_of_mem (mem_pendingAt.mp hkey).1

theorem sifted_eq_value? (h : found.get? (stack.fullKey key) = scene.shown slot (stack.fullKey key)) :
    stack.sifted found key = scene.value? slot (stack.fullKey key) := by
  unfold sifted Scene.value?
  rw [h]
  cases scene.shown slot (stack.fullKey key) with
  | none => rfl
  | some payload =>
    simp only [Reading.ofReply]
    rcases Record.decode payload with - | ⟨content⟩ | - <;> rfl

theorem fetchFrom_nothing (stack : Stack) (hits : Table Bytes) (above below : List Tier) :
    (stack.fetchFrom hits [] above below : CacheProc ScriptedLoader _) = (do
      CacheProc.notice (.batchRead hits.size 0)
      pure (.ok ⟨hits, []⟩)) := by
  cases below <;> rfl

section
variable {sorted : Sorted}
  (hsorted : sorted = (stack.pendingAt scene keys above).foldl (Sorted.add stack found) { hits := hits })
  (hsifted : ∀ key ∈ stack.pendingAt scene keys above,
    stack.sifted found key = scene.value? slot (stack.fullKey key))

include hsorted hsifted

theorem pending_sorted : sorted.pending = stack.pendingAt scene keys (above ++ [slot]) := by
  rw [hsorted, foldl_pending, List.nil_append, pendingAt, pendingAt, List.filter_filter]
  refine List.filter_congr fun key hkey => ?_
  rw [Scene.origin?_append]
  cases hnone : scene.origin? (stack.fullKey key) above with
  | some origin => simp
  | none =>
    rw [hsifted key (mem_pendingAt.mpr ⟨hkey, hnone⟩)]
    cases scene.value? slot (stack.fullKey key) <;> rfl

theorem promoted_sorted (full : String) :
    sorted.promoted.get? full =
      if full ∈ (stack.pendingAt scene keys above).map stack.fullKey then
        (scene.value? slot full).map Prod.fst
      else none := by
  split
  · rename_i hfull
    obtain ⟨key, hkey, rfl⟩ := List.mem_map.mp hfull
    rw [hsorted, foldl_promoted, if_pos hkey, hsifted key hkey]
    exact Option.or_none
  · rename_i hfull
    refine Table.lookup_eq_none fun hmem => hfull ?_
    obtain ⟨key, hkey, rfl⟩ := promoted_named hsorted full hmem
    exact List.mem_map_of_mem hkey

/-- When one more slot is passed, what it has is added, and copied into the slots above. -/
theorem Passed.next {after : Scene} (h : stack.Passed faults scene keys above hits mid)
    (hcopies : mid.Copies faults stack.settings.defaultTtl
      (fun full => (sorted.promoted.get? full).map fun payload => (above, payload)) after) :
    stack.Passed faults scene keys (above ++ [slot]) sorted.hits after := by
  refine ⟨fun key => ?_, h.copies.trans hcopies fun home full c c' hc hc' => ?_⟩
  · rw [hsorted, foldl_hits, h.hits, Scene.origin?_append]
    by_cases hkey : key ∈ keys
    · cases horigin : scene.origin? (stack.fullKey key) above with
      | some origin => simp [hkey, mem_pendingAt, horigin]
      | none =>
        have hpending := mem_pendingAt.mpr ⟨hkey, horigin⟩
        rw [if_pos hpending, hsifted key hpending]
        cases scene.value? slot (stack.fullKey key) <;> simp [hkey]
    · simp [hkey, mem_pendingAt]
  · rw [promoted_sorted hsorted hsifted] at hc'
    rw [promotions_append]
    split
    · rename_i hpending
      rw [promotions_pending hpending] at hc
      rw [if_pos hpending, Option.map_map] at hc'
      exact hc.after_nothing hc'
    · rename_i hpending
      rw [if_neg hpending] at hc'
      exact hc.before_nothing hc'

end

end

-- ---------------------------------------------------------------------------
-- Runs of a batch lookup
-- ---------------------------------------------------------------------------

section
variable {stack : Stack} {faults : Faults} {scene mid : Scene} {keys : List String} {above : List Tier}
  {hits : Table Bytes}

theorem consults_promote (stack : Stack) (faults : Faults) (mid : Scene) (items : Table Bytes)
    (tiers : List Tier) :
    ∃ next, mid.Copies faults stack.settings.defaultTtl
        (fun full => (items.get? full).map fun payload => (tiers.map Tier.slot, payload)) next ∧
      ∀ {β : Type} {rest : CacheProc ScriptedLoader β} {queries : List (Nat × LayerOp)} {b : β}
        {after : Scene}, Consults faults rest next queries b after →
        Consults faults (if items.isEmpty then rest else stack.backfillAll items tiers >>= fun _ => rest)
          mid queries b after := by
  obtain ⟨next, hgoes, hcopies⟩ := consults_backfillAll stack faults mid items tiers
  cases hempty : items.isEmpty with
  | true =>
    have hnone (full : String) : items.get? full = none := by
      rw [Table.get?, List.isEmpty_iff.mp hempty]
      rfl
    refine ⟨mid, ?_, fun hrest => hrest⟩
    simpa only [hnone, Option.map_none] using Scene.Copies.refl
  | false => exact ⟨next, hcopies, fun hrest => hgoes.bind hrest⟩

variable {tier : Tier}

theorem pending_of_first {e : CacheError}
    (h : faults.first? (stack.inquiry scene keys (above.map Tier.slot) tier) = some e) :
    stack.pendingAt scene keys (above.map Tier.slot) ≠ [] := by
  intro hnone
  simp [inquiry, Tier.queries, hnone, Faults.first?] at h

theorem fetchFrom_cons (tier : Tier) (below : List Tier) {pending : List String} (h : pending ≠ []) :
    (stack.fetchFrom hits pending above (tier :: below) : CacheProc ScriptedLoader _) = (do
      match ← fetch tier (pending.map stack.fullKey) with
      | .error e => pure (.error e)
      | .ok found =>
        let sorted ← stack.sortAll tier found { hits := hits } pending
        unless sorted.promoted.isEmpty do stack.backfillAll sorted.promoted above
        stack.fetchFrom sorted.hits sorted.pending (above ++ [tier]) below) := by
  rw [fetchFrom]
  exact if_neg (mt List.isEmpty_iff.mp h)

theorem ends_at_tier {e : CacheError} (h : stack.Passed faults scene keys (above.map Tier.slot) hits mid)
    (herror : faults.first? (stack.inquiry scene keys (above.map Tier.slot) tier) = some e) :
    ∃ queries after, queries <+: stack.inquiry scene keys (above.map Tier.slot) tier ∧
      scene.Copies faults stack.settings.defaultTtl
        (stack.promotions scene keys (above.map Tier.slot)) after ∧
      ∀ below, Consults faults (stack.fetchFrom hits
        (stack.pendingAt scene keys (above.map Tier.slot)) above (tier :: below)) mid queries (.error e)
        after := by
  have hpending := pending_of_first herror
  have hfetch := consults_fetch faults tier mid (mt (List.map_eq_nil_iff (f := stack.fullKey)).mp hpending)
  unfold inquiry at herror
  simp only [herror] at hfetch
  obtain ⟨queries, after, hprefix, hgoes, hkept⟩ := hfetch
  refine ⟨queries, after, hprefix, h.copies.then_kept hkept, fun below => ?_⟩
  rw [fetchFrom_cons tier below hpending]
  exact hgoes.then_unseen (Proc.goes_pure _)

/-- A layer that answers is passed. -/
theorem passes_tier (h : stack.Passed faults scene keys (above.map Tier.slot) hits mid)
    (herror : faults.first? (stack.inquiry scene keys (above.map Tier.slot) tier) = none) :
    ∃ hits' next, stack.Passed faults scene keys ((above ++ [tier]).map Tier.slot) hits' next ∧
      ∀ below queries result after,
        Consults faults (stack.fetchFrom hits'
          (stack.pendingAt scene keys ((above ++ [tier]).map Tier.slot)) (above ++ [tier]) below)
          next queries result after →
        Consults faults (stack.fetchFrom hits
          (stack.pendingAt scene keys (above.map Tier.slot)) above (tier :: below))
          mid (stack.inquiry scene keys (above.map Tier.slot) tier ++ queries) result after := by
  have hslots : (above ++ [tier]).map Tier.slot = above.map Tier.slot ++ [tier.slot] := List.map_append
  rw [hslots]
  by_cases hnone : stack.pendingAt scene keys (above.map Tier.slot) = []
  · -- Nothing is asked, and the same program goes on with the layers below.
    have hsorted : Sorted.mk hits {} [] =
        (stack.pendingAt scene keys (above.map Tier.slot)).foldl (Sorted.add stack {}) { hits := hits } := by
      rw [hnone]
      rfl
    have hsifted : ∀ key ∈ stack.pendingAt scene keys (above.map Tier.slot),
        stack.sifted {} key = scene.value? tier.slot (stack.fullKey key) := by
      simp [hnone]
    have hinquiry : stack.inquiry scene keys (above.map Tier.slot) tier = [] := by
      simp [inquiry, Tier.queries, hnone]
    refine ⟨hits, mid, h.next hsorted hsifted Scene.Copies.refl, fun below queries result after hgoes => ?_⟩
    rw [← pending_sorted hsorted hsifted, fetchFrom_nothing] at hgoes
    rwa [hinquiry, hnone, fetchFrom_nothing]
  · have hfetch := consults_fetch faults tier mid (mt (List.map_eq_nil_iff (f := stack.fullKey)).mp hnone)
    unfold inquiry at herror
    simp only [herror] at hfetch
    obtain ⟨found, read, hgoes, hkept, hfound⟩ := hfetch
    have hsifted : ∀ key ∈ stack.pendingAt scene keys (above.map Tier.slot),
        stack.sifted found key = scene.value? tier.slot (stack.fullKey key) := fun key hkey => by
      have hfull := List.mem_map_of_mem (f := stack.fullKey) hkey
      exact sifted_eq_value? ((hfound _ hfull).trans (h.copies.shown_eq (promotions_pending hfull) _))
    obtain ⟨next, hcopies, hpromote⟩ := consults_promote stack faults read
      ((stack.pendingAt scene keys (above.map Tier.slot)).foldl (Sorted.add stack found)
        { hits := hits }).promoted above
    refine ⟨_, next, h.next rfl hsifted (hcopies.following hkept), fun below queries result after hrest => ?_⟩
    rw [fetchFrom_cons tier below hnone]
    refine hgoes.bind ?_
    refine (consults_sortAll stack faults tier read found { hits := hits } _).unseen (hpromote ?_)
    rw [pending_sorted rfl hsifted]
    exact hrest

theorem passes_tiers (above : List Tier) {upper : List Tier}
    (h : stack.Passed faults scene keys (above.map Tier.slot) hits mid)
    (herror : faults.first? (stack.inquiries scene keys (above.map Tier.slot) upper) = none) :
    ∃ hits' next, stack.Passed faults scene keys ((above ++ upper).map Tier.slot) hits' next ∧
      ∀ below queries result after,
        Consults faults (stack.fetchFrom hits'
          (stack.pendingAt scene keys ((above ++ upper).map Tier.slot)) (above ++ upper) below)
          next queries result after →
        Consults faults (stack.fetchFrom hits
          (stack.pendingAt scene keys (above.map Tier.slot)) above (upper ++ below))
          mid (stack.inquiries scene keys (above.map Tier.slot) upper ++ queries) result after := by
  induction upper generalizing above hits mid with
  | nil => exact ⟨hits, mid, by simpa using h, fun _ _ _ _ hgoes => by simpa [inquiries] using hgoes⟩
  | cons tier upper ih =>
    have hslots : (above ++ [tier]).map Tier.slot = above.map Tier.slot ++ [tier.slot] := List.map_append
    unfold inquiries Faults.first? at herror
    rw [List.findSome?_append, Option.or_eq_none_iff, ← hslots] at herror
    obtain ⟨hits₁, mid₁, hpassed₁, hfirst⟩ := passes_tier h herror.1
    obtain ⟨hits₂, mid₂, hpassed₂, hrest⟩ := ih (above ++ [tier]) hpassed₁ herror.2
    rw [List.append_assoc, List.singleton_append] at hpassed₂ hrest
    refine ⟨hits₂, mid₂, hpassed₂, fun below queries result after hgoes => ?_⟩
    rw [inquiries, ← hslots, List.append_assoc]
    exact hfirst _ _ _ _ (hrest _ _ _ _ hgoes)

/-- Which layers have batch calls makes no difference. -/
theorem Passed.recast {other : Stack} {slots : List Nat} (hsettings : other.settings = stack.settings)
    (h : other.Passed faults scene keys slots hits mid) : stack.Passed faults scene keys slots hits mid := by
  obtain ⟨settings, tiers⟩ := stack
  cases hsettings
  exact ⟨h.hits, h.copies⟩

theorem pendingAt_congr {other : Stack} {slots : List Nat} (hsettings : other.settings = stack.settings) :
    other.pendingAt scene keys slots = stack.pendingAt scene keys slots := by
  obtain ⟨settings, tiers⟩ := stack
  cases hsettings
  rfl

theorem passed_none (stack : Stack) (faults : Faults) (scene : Scene) (keys : List String) :
    stack.Passed faults scene keys [] {} scene := by
  have hnone : stack.promotions scene keys [] = fun _ => none :=
    funext fun full => by simp [promotions, Scene.origin?]
  exact ⟨fun key => (ite_self _).symm, hnone ▸ .refl⟩

theorem consults_mget {queries : List (Nat × LayerOp)} {result : Except CacheError BatchGet} {after : Scene}
    (h : Consults faults (stack.fetchFrom {} (TtlMap.asked keys) [] stack.tiers) scene queries result after) :
    Consults faults (stack.mget keys) scene queries result after := by
  unfold mget
  rw [TtlMap.distinctKeys_eq]
  simp only
  split
  · rename_i hnone
    rw [List.isEmpty_iff.mp hnone, fetchFrom_nothing] at h
    exact ⟨h.seen, h.run⟩
  · exact h

end

-- ---------------------------------------------------------------------------
-- What a batch lookup comes to
-- ---------------------------------------------------------------------------

/-- A key is among the hits with the value of the first layer that has one. The others are missing, in
their order. -/
structure Sorts (stack : Stack) (scene : Scene) (keys : List String) (batch : BatchGet) : Prop where
  hits (key : String) (value : Bytes) : batch.hits.get? key = some value ↔ key ∈ keys ∧
    ∃ upper payload, scene.Origin (stack.fullKey key) stack.slots upper payload value
  missing : batch.missing = keys.filter fun key => (batch.hits.get? key).isNone

/-- Each of some slots has, for the default time, what the first one below with a value of a key has
under it, unless a call on it fails. Nothing else is changed. -/
structure Promotes (stack : Stack) (faults : Faults) (scene : Scene) (keys : List String)
    (slots : List Nat) (after : Scene) : Prop where
  rest : after = { scene with storage := after.storage }
  copied {key : String} {upper : List Nat} {payload value : Bytes} {slot : Nat} (hkey : key ∈ keys)
    (horigin : scene.Origin (stack.fullKey key) slots upper payload value) (hslot : slot ∈ upper)
    (hspares : faults.Spares slot) :
    ∃ item, after.item? slot (stack.fullKey key) scene.now = some item ∧ item.payload = payload ∧
      item.Ends scene.now stack.settings.defaultTtl
  others (slot : Nat) (full : String) :
    (∀ t, scene.now ≤ t → after.item? slot full t = scene.item? slot full t) ∨
    ∃ key upper payload value, key ∈ keys ∧ full = stack.fullKey key ∧
      scene.Origin full slots upper payload value ∧
      (∃ s ∈ upper, scene.storage.home s = scene.storage.home slot) ∧
      ∃ item, after.item? slot full scene.now = some item ∧ item.payload = payload ∧
        item.Ends scene.now stack.settings.defaultTtl

section
variable {stack : Stack} {faults : Faults} {scene after : Scene} {keys : List String} {slots : List Nat}

theorem promotes_of_copies (h : scene.Copies faults stack.settings.defaultTtl
    (stack.promotions scene keys slots) after) : stack.Promotes faults scene keys slots after := by
  obtain ⟨changes, halters, hcopying⟩ := h
  refine ⟨halters.rest, fun {key upper payload value slot} hkey horigin hslot hspares => ?_,
    fun slot full => ?_⟩
  · have hdue : stack.promotions scene keys slots (stack.fullKey key) = some (upper, payload) := by
      rw [promotions, if_pos (List.mem_map_of_mem hkey), Scene.origin?_eq_some_iff.mpr horigin]
      rfl
    exact halters.item?_put ((hcopying _ _).made hdue hslot rfl hspares)
  · rcases (hcopying (scene.storage.home slot) full).only with
      hkept | ⟨upper, payload, hdue, hhome, hput⟩
    · exact .inl fun t ht => halters.item?_kept ht hkept
    · unfold promotions at hdue
      split at hdue
      · rename_i hfull
        obtain ⟨key, hkey, rfl⟩ := List.mem_map.mp hfull
        obtain ⟨⟨_, _, value⟩, horigin, hpair⟩ := Option.map_eq_some_iff.mp hdue
        cases hpair
        exact .inr ⟨key, upper, payload, value, hkey, rfl, Scene.origin?_eq_some_iff.mp horigin, hhome,
          halters.item?_put hput⟩
      · cases hdue

theorem sorts_of_passed {hits : Table Bytes}
    (h : stack.Passed faults scene keys stack.slots hits after) :
    stack.Sorts scene keys ⟨hits, stack.pendingAt scene keys stack.slots⟩ := by
  refine ⟨fun key value => ?_, List.filter_congr fun key hkey => ?_⟩
  · rw [h.hits]
    by_cases hkey : key ∈ keys
    · simp [hkey, ← Scene.origin?_eq_some_iff]
    · simp [hkey]
  · simp [h.hits, hkey]

theorem consults_answered (stack : Stack) (scene : Scene) (keys : List String)
    (h : faults.first? (stack.inquiries scene (TtlMap.asked keys) [] stack.tiers) = none) :
    ∃ hits after,
      Consults faults (stack.mget keys) scene (stack.inquiries scene (TtlMap.asked keys) [] stack.tiers)
        (.ok ⟨hits, stack.pendingAt scene (TtlMap.asked keys) stack.slots⟩) after ∧
      stack.Passed faults scene (TtlMap.asked keys) stack.slots hits after := by
  obtain ⟨hits, after, hpassed, hgoes⟩ := passes_tiers [] (passed_none stack faults scene _) h
  refine ⟨hits, after, consults_mget ?_, hpassed⟩
  have hend := hgoes [] _ _ _ (Consults.notice _ (Proc.goes_pure _))
  simpa [slots, pendingAt_nil] using hend

/-- A layer that fails to answer ends it, and what has been copied by then stays. -/
theorem consults_failed {upper lower : List Tier} {tier : Tier} {e : CacheError}
    (htiers : stack.tiers = upper ++ tier :: lower)
    (hupper : faults.first? (stack.inquiries scene (TtlMap.asked keys) [] upper) = none)
    (h : faults.first? (stack.inquiry scene (TtlMap.asked keys) (upper.map Tier.slot) tier) = some e) :
    ∃ queries after, queries <+: stack.inquiry scene (TtlMap.asked keys) (upper.map Tier.slot) tier ∧
      Consults faults (stack.mget keys) scene
        (stack.inquiries scene (TtlMap.asked keys) [] upper ++ queries) (.error e) after ∧
      scene.Copies faults stack.settings.defaultTtl
        (stack.promotions scene (TtlMap.asked keys) (upper.map Tier.slot)) after := by
  obtain ⟨hits, mid, hpassed, hgoes⟩ := passes_tiers [] (passed_none stack faults scene _) hupper
  obtain ⟨queries, after, hprefix, hcopies, hends⟩ := ends_at_tier hpassed h
  refine ⟨queries, after, hprefix, consults_mget ?_, hcopies⟩
  have hend := hgoes (tier :: lower) _ _ _ (hends lower)
  rwa [List.map_nil, pendingAt_nil, ← htiers] at hend

end

end Stack

open Stack in
/-- Whatever is in the layers, whichever of them have batch calls, and whichever calls on them fail: a
batch lookup asks one layer after the other for the keys that are still pending, none of which is empty or
comes twice, and asks no layer for nothing. If they all answer, it sorts the keys into hits and missing
ones. A negative record or what is no record does not keep it from going on. The first layer that fails
ends it with its error. Besides the copies above the layers that have answered so far, nothing is changed.
What comes out of it and what is live afterwards do not depend on which layers have batch calls. -/
theorem mget_sorts (stack : Stack) (faults : Faults) (scene : Scene) (keys : List String) :
    let asked := TtlMap.asked keys
    (faults.first? (stack.inquiries scene asked [] stack.tiers) = none → ∃ batch after,
      Consults faults (stack.mget keys) scene (stack.inquiries scene asked [] stack.tiers) (.ok batch) after ∧
      stack.Sorts scene asked batch ∧ stack.Promotes faults scene asked stack.slots after) ∧
    (∀ upper tier lower e, stack.tiers = upper ++ tier :: lower →
      faults.first? (stack.inquiries scene asked [] upper) = none →
      faults.first? (stack.inquiry scene asked (upper.map Tier.slot) tier) = some e →
      ∃ queries after, queries <+: stack.inquiry scene asked (upper.map Tier.slot) tier ∧
        Consults faults (stack.mget keys) scene (stack.inquiries scene asked [] upper ++ queries) (.error e)
          after ∧
        stack.Promotes faults scene asked (upper.map Tier.slot) after) ∧
    ((∀ slot, faults.Spares slot) →
      ∀ other : Stack, other.settings = stack.settings → other.slots = stack.slots →
      ∃ batch after batch' after',
        Consults faults (stack.mget keys) scene (stack.inquiries scene asked [] stack.tiers) (.ok batch)
          after ∧
        Consults faults (other.mget keys) scene (other.inquiries scene asked [] other.tiers) (.ok batch')
          after' ∧
        (∀ key, batch'.hits.get? key = batch.hits.get? key) ∧ batch'.missing = batch.missing ∧
        ∀ slot full t, scene.now ≤ t → after'.item? slot full t = after.item? slot full t) := by
  refine ⟨fun h => ?_, fun upper tier lower e htiers hupper h => ?_, fun hspares other hsettings hslots => ?_⟩
  · obtain ⟨hits, after, hgoes, hpassed⟩ := consults_answered stack scene keys h
    exact ⟨_, after, hgoes, sorts_of_passed hpassed, promotes_of_copies hpassed.copies⟩
  · obtain ⟨queries, after, hprefix, hgoes, hcopies⟩ := consults_failed htiers hupper h
    exact ⟨queries, after, hprefix, hgoes, promotes_of_copies hcopies⟩
  · have hanswered (calls : List (Nat × LayerOp)) : faults.first? calls = none :=
      List.findSome?_eq_none_iff.mpr fun call _ => hspares call.1 call.2
    obtain ⟨hits, after, hgoes, hpassed⟩ := consults_answered stack scene keys (hanswered _)
    obtain ⟨hits', after', hgoes', hpassed'⟩ := consults_answered other scene keys (hanswered _)
    have hother := hpassed'.recast hsettings
    rw [hslots] at hother
    refine ⟨_, after, _, after', hgoes, hgoes', fun key => ?_, ?_, fun slot full t ht => ?_⟩
    · exact (hother.hits key).trans (hpassed.hits key).symm
    · rw [pendingAt_congr hsettings, hslots]
    · exact hother.copies.item?_eq hspares hpassed.copies ht

def mixedStack : Stack :=
  ⟨fadedStack.settings, [⟨0, "near", false⟩, ⟨1, "mid", true⟩, ⟨2, "far", false⟩, ⟨3, "farthest", true⟩]⟩

def refusedWrite : Faults where
  error? := fun slot op =>
    match slot, op with
    | 1, .mset .. => some (.timeout "mid" (.ofNanos 1))
    | _, _ => none

def refusedRead : Faults where
  error? := fun slot op =>
    match slot, op with
    | 1, .mset .. => some (.timeout "mid" (.ofNanos 1))
    | 3, .mget _ => some (.timeout "farthest" (.ofNanos 1))
    | _, _ => none

theorem mget_sorts_faded :
    (∃ batch after, Consults refusedWrite (mixedStack.mget ["b", "", "a", "b"]) fadedLayers
        [(0, .get "p:b"), (0, .get "p:a"), (1, .mget ["p:b", "p:a"]), (2, .get "p:b"), (2, .get "p:a"), (3, .mget ["p:b"])]
        (.ok batch) after ∧
      batch.hits.get? "a" = some [2] ∧ batch.missing = ["b"] ∧
      ∃ item, after.item? 0 "p:a" fadedLayers.now = some item ∧ item.payload = Record.encode [2]) ∧
    (∃ queries after, Consults refusedRead (mixedStack.mget ["b", "", "a", "b"]) fadedLayers
        ([(0, .get "p:b"), (0, .get "p:a"), (1, .mget ["p:b", "p:a"]), (2, .get "p:b"), (2, .get "p:a")] ++ queries)
        (.error (.timeout "farthest" (.ofNanos 1))) after ∧
      ∃ item, after.item? 0 "p:a" fadedLayers.now = some item ∧ item.payload = Record.encode [2]) ∧
    ∃ batch after batch' after',
      Consults {} (fadedStack.mget ["a"]) fadedLayers [(0, .mget ["p:a"]), (1, .mget ["p:a"]), (2, .mget ["p:a"])]
        (.ok batch) after ∧
      Consults {} (mixedStack.mget ["a"]) fadedLayers [(0, .get "p:a"), (1, .mget ["p:a"]), (2, .get "p:a")]
        (.ok batch') after' ∧
      batch'.missing = batch.missing ∧
      after'.item? 1 "p:a" fadedLayers.now = after.item? 1 "p:a" fadedLayers.now := by
  have horigin (lower : List Nat) :
      fadedLayers.Origin (mixedStack.fullKey "a") (0 :: 1 :: 2 :: lower) [0, 1] (Record.encode [2]) [2] :=
    ⟨2, lower, rfl, by decide +kernel, by decide +kernel⟩
  have hspared : refusedWrite.Spares 0 ∧ refusedRead.Spares 0 :=
    ⟨fun op => by cases op <;> rfl, fun op => by cases op <;> rfl⟩
  refine ⟨?_, ?_, ?_⟩
  · obtain ⟨batch, after, hgoes, hsorts, hpromotes⟩ :=
      (mget_sorts mixedStack refusedWrite fadedLayers ["b", "", "a", "b"]).1 (by decide +kernel)
    have ha : batch.hits.get? "a" = some [2] := (hsorts.hits "a" [2]).mpr ⟨by decide, _, _, horigin [3]⟩
    have hb : batch.hits.get? "b" = none := by
      refine Option.eq_none_iff_forall_ne_some.mpr fun value hvalue => ?_
      obtain ⟨-, upper, payload, horigin⟩ := (hsorts.hits "b" value).mp hvalue
      have hnone : fadedLayers.origin? (mixedStack.fullKey "b") mixedStack.slots = none := by
        decide +kernel
      cases hnone.symm.trans (Scene.origin?_eq_some_iff.mpr horigin)
    obtain ⟨item, hitem, hpayload, -⟩ :=
      hpromotes.copied (by decide) (horigin [3]) List.mem_cons_self hspared.1
    refine ⟨batch, after, hgoes, ha, ?_, item, hitem, hpayload⟩
    rw [hsorts.missing]
    simp [show TtlMap.asked ["b", "", "a", "b"] = ["b", "a"] by decide, ha, hb]
  · obtain ⟨queries, after, -, hgoes, hpromotes⟩ :=
      (mget_sorts mixedStack refusedRead fadedLayers ["b", "", "a", "b"]).2.1 (mixedStack.tiers.take 3)
        ⟨3, "farthest", true⟩ [] (.timeout "farthest" (.ofNanos 1)) rfl (by decide +kernel)
        rfl
    obtain ⟨item, hitem, hpayload, -⟩ :=
      hpromotes.copied (by decide) (horigin []) List.mem_cons_self hspared.2
    exact ⟨queries, after, hgoes, item, hitem, hpayload⟩
  · obtain ⟨batch, after, batch', after', hgoes, hgoes', -, hmissing, hitems⟩ :=
      (mget_sorts fadedStack {} fadedLayers ["a"]).2.2 (fun _ _ => rfl) mixedStack rfl rfl
    refine ⟨batch, after, batch', after', ?_, ?_, hmissing, hitems 1 "p:a" _ (Nat.le_refl _)⟩
    · convert hgoes using 1
      decide +kernel
    · convert hgoes' using 1
      decide +kernel

end StackedCache
