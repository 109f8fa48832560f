import StackedCache.Proofs.BatchAccounts
import StackedCache.Proofs.CallTraces
import StackedCache.Proofs.TtlMap

/-!
# Traces of calls on several keys

A batch does to each of its keys what a call on the key alone does, or less: a
value that is found is copied upwards, and what was loaded is written once to
all layers. Nothing that a layer or a loader says of other keys leads to more.
-/

namespace StackedCache

open Simulation CacheProc

namespace Stack

-- ---------------------------------------------------------------------------
-- Reading one layer
-- ---------------------------------------------------------------------------

section
variable {stack : Stack} {given : String → Prop} {tier : Tier}

theorem traced_fetchEach {keys : List String} (h : ∀ key ∈ keys, given key)
    {seen : List CacheExchange} {before : List String} {found : Table Bytes}
    (hfound : Reported seen tier.slot before found) :
    (fetchEach tier found keys : CacheProc ScriptedLoader _).Traced fun told result =>
      Quiet given told ∧ (∀ e, result = .error e → ∃ x ∈ told, ReadFails x) ∧
      ∀ table, result = .ok table → Reported (seen ++ told) tier.slot (before ++ keys) table := by
  induction keys generalizing seen before found with
  | nil =>
    refine Proc.traced_pure ⟨.nil, by simp, ?_⟩
    rintro table ⟨⟩
    simpa using hfound
  | cons key keys ih =>
    obtain ⟨hkey, hkeys⟩ := List.forall_mem_cons.mp h
    refine (traced_getFrom hkey tier).bind ?_
    rintro _ result ⟨hquiet, rfl⟩
    cases result with
    | error e => exact Proc.traced_pure ⟨hquiet, fun _ _ => ⟨_, List.mem_cons_self, .get⟩, by simp⟩
    | ok entry =>
      have hfetched : ∃ x ∈ seen ++ [⟨.layer tier.slot (.get key), .ok entry⟩],
          Fetches x tier.slot key (entry.map Entry.payload) :=
        ⟨_, List.mem_append_right _ List.mem_cons_self, .get⟩
      have hnext := ih hkeys (hfound.next (List.prefix_append seen _) hfetched)
      refine Proc.Traced.mono (P := fun more result => Quiet given more ∧
        (∀ e, result = .error e → ∃ x ∈ more, ReadFails x) ∧ ∀ table, result = .ok table →
          Reported (seen ++ [⟨.layer tier.slot (.get key), .ok entry⟩] ++ more) tier.slot
            (before ++ [key] ++ keys) table) ?_ ?_
      · cases entry <;> exact hnext
      · rintro more result ⟨hmore, hfails, htable⟩
        refine ⟨hmore.after hquiet, fun e he => ?_, by simpa using htable⟩
        obtain ⟨x, hx, hfail⟩ := hfails e he
        exact ⟨x, List.mem_append_right _ hx, hfail⟩

structure Asked (given : String → Prop) (tier : Tier) (keys : List String) (told : List CacheExchange)
    (result : Except CacheError (Table Bytes)) : Prop where
  quiet : Quiet given told
  fails {e : CacheError} : result = .error e → ∃ x ∈ told, ReadFails x
  fetched {table : Table Bytes} {key : String} : result = .ok table → key ∈ keys →
    ∃ x ∈ told, Fetches x tier.slot key (table.get? key)

theorem traced_fetch {keys : List String} (hkeys : keys ≠ []) (h : ∀ key ∈ keys, given key) :
    (fetch tier keys : CacheProc ScriptedLoader _).Traced (Asked given tier keys) := by
  unfold fetch
  split
  · refine (traced_ask (.layer tier.slot (.mget keys))).bind ?_
    rintro _ result rfl
    have hproper : (CacheRequest.layer tier.slot (.mget keys) : CacheRequest ScriptedLoader).Proper given :=
      ⟨hkeys, h⟩
    have hquiet := quiet_exchange hproper rfl (fun _ => rfl) result
    cases result with
    | error e => exact Proc.traced_pure ⟨hquiet, fun _ => ⟨_, List.mem_cons_self, .mget⟩, by simp⟩
    | ok batch =>
      refine Proc.traced_pure ⟨hquiet, by simp, ?_⟩
      rintro table key ⟨⟩ hkey
      exact ⟨_, List.mem_cons_self, .mget hkey⟩
  · have hnone : Reported [] tier.slot [] {} :=
      ⟨fun hmem => absurd hmem List.not_mem_nil, fun _ => rfl⟩
    refine (traced_fetchEach h hnone).mono ?_
    rintro told result ⟨hquiet, hfails, htable⟩
    exact ⟨hquiet, fun he => hfails _ he, fun htab hkey => (htable _ htab).asked hkey⟩

-- ---------------------------------------------------------------------------
-- Sorting its answer
-- ---------------------------------------------------------------------------

def Named (stack : Stack) (keys : List String) (full : String) : Prop :=
  ∃ key ∈ keys, full = stack.fullKey key

def sifted (stack : Stack) (found : Table Bytes) (key : String) : Option (Bytes × Bytes) :=
  match found.get? (stack.fullKey key) with
  | none => none
  | some payload =>
    match Record.decode payload with
    | some (.positive value) => some (payload, (Record.positive value).value)
    | _ => none

def Sorted.add (stack : Stack) (found : Table Bytes) (sorted : Sorted) (key : String) : Sorted :=
  match stack.sifted found key with
  | none => { sorted with pending := sorted.pending ++ [key] }
  | some (payload, value) =>
    { sorted with
      hits := sorted.hits.insert key value
      promoted := sorted.promoted.insert (stack.fullKey key) payload }

theorem traced_sortOne (given : String → Prop) (found : Table Bytes) (sorted : Sorted) (key : String) :
    (stack.sortOne tier found sorted key : CacheProc ScriptedLoader _).Traced fun told result =>
      Quiet given told ∧ result = sorted.add stack found key := by
  unfold sortOne Sorted.add sifted
  cases found.get? (stack.fullKey key) with
  | none => exact Proc.traced_pure ⟨.nil, rfl⟩
  | some payload =>
    simp only
    match Record.decode payload with
    | none => exact traced_notice Comes.stable.and _ (Proc.traced_pure ⟨.nil, rfl⟩)
    | some .negative => exact traced_count Comes.stable.and _ (Proc.traced_pure ⟨.nil, rfl⟩)
    | some (.positive value) =>
      exact traced_count Comes.stable.and _ (Proc.traced_pure ⟨.nil, rfl⟩)

theorem traced_sortAll (given : String → Prop) (found : Table Bytes) (sorted : Sorted) (keys : List String) :
    (stack.sortAll tier found sorted keys : CacheProc ScriptedLoader _).Traced fun told result =>
      Quiet given told ∧ result = keys.foldl (Sorted.add stack found) sorted := by
  induction keys generalizing sorted with
  | nil => exact Proc.traced_pure ⟨.nil, rfl⟩
  | cons key keys ih =>
    refine (traced_sortOne given found sorted key).bind ?_
    rintro told _ ⟨hquiet, rfl⟩
    exact (ih _).after hquiet Comes.stable.and

theorem sifted_eq_some {found : Table Bytes} {key : String} {payload value : Bytes}
    (h : stack.sifted found key = some (payload, value)) :
    found.get? (stack.fullKey key) = some payload ∧
      ∃ content, Record.decode payload = some (.positive content) ∧
        value = (Record.positive content).value := by
  unfold sifted at h
  split at h
  · cases h
  · rename_i hfound
    split at h
    · rename_i hdecode
      cases h
      exact ⟨hfound, _, hdecode, rfl⟩
    · cases h

theorem foldl_pending (found : Table Bytes) (keys : List String) (sorted : Sorted) :
    (keys.foldl (Sorted.add stack found) sorted).pending =
      sorted.pending ++ keys.filter fun key => (stack.sifted found key).isNone := by
  induction keys generalizing sorted with
  | nil => simp
  | cons key keys ih =>
    rw [List.foldl_cons, ih]
    unfold Sorted.add
    cases hsifted : stack.sifted found key <;> simp [hsifted]

theorem foldl_hits (found : Table Bytes) (keys : List String) (sorted : Sorted) (k : String) :
    (keys.foldl (Sorted.add stack found) sorted).hits.get? k =
      ((if k ∈ keys then stack.sifted found k else none).map Prod.snd).or (sorted.hits.get? k) := by
  induction keys generalizing sorted with
  | nil => rfl
  | cons key keys ih =>
    rw [List.foldl_cons, ih]
    unfold Sorted.add
    by_cases hk : key = k
    · subst hk
      by_cases hmem : key ∈ keys <;>
        cases hsifted : stack.sifted found key <;> simp [Table.get?_insert, hmem]
    · cases hsifted : stack.sifted found key <;> simp [Table.get?_insert, hk, Ne.symm hk]

theorem foldl_promoted (found : Table Bytes) (keys : List String) (sorted : Sorted) (k : String) :
    (keys.foldl (Sorted.add stack found) sorted).promoted.get? (stack.fullKey k) =
      ((if k ∈ keys then stack.sifted found k else none).map Prod.fst).or
        (sorted.promoted.get? (stack.fullKey k)) := by
  induction keys generalizing sorted with
  | nil => rfl
  | cons key keys ih =>
    rw [List.foldl_cons, ih]
    unfold Sorted.add
    by_cases hk : key = k
    · subst hk
      by_cases hmem : key ∈ keys <;>
        cases hsifted : stack.sifted found key <;> simp [Table.get?_insert, hmem]
    · cases hsifted : stack.sifted found key <;>
        simp [Table.get?_insert, fullKey_inj, hk, Ne.symm hk]

theorem foldl_promoted_keys (found : Table Bytes) {keys : List String} {sorted : Sorted} {full : String}
    (h : full ∈ (keys.foldl (Sorted.add stack found) sorted).promoted.keys) :
    full ∈ sorted.promoted.keys ∨ stack.Named keys full := by
  induction keys generalizing sorted with
  | nil => exact .inl h
  | cons key keys ih =>
    rcases ih h with hmem | ⟨k, hk, rfl⟩
    · unfold Sorted.add at hmem
      split at hmem
      · exact .inl hmem
      · rcases Table.mem_keys_put hmem with rfl | hmem
        · exact .inr ⟨key, List.mem_cons_self, rfl⟩
        · exact .inl hmem
    · exact .inr ⟨k, List.mem_cons_of_mem _ hk, rfl⟩

theorem promoted_named {found hits : Table Bytes} {pending : List String} {sorted : Sorted}
    (h : sorted = pending.foldl (Sorted.add stack found) { hits := hits }) :
    ∀ full ∈ sorted.promoted.keys, stack.Named pending full := by
  intro full hmem
  rw [h] at hmem
  exact (foldl_promoted_keys found hmem).resolve_left List.not_mem_nil

-- ---------------------------------------------------------------------------
-- Copying upwards
-- ---------------------------------------------------------------------------

def rowsFor (items : Table Bytes) (ttl : Duration) : List (String × Bytes × Duration) :=
  items.rows.map fun row => (row.1, row.2, ttl)

theorem putsOf_rowsFor (tiers : List Tier) (items : Table Bytes) (ttl : Duration) (key : String) :
    putsOf tiers (rowsFor items ttl) key =
      match items.get? key with
      | some payload => tiers.map fun tier => (tier.slot, .put payload ttl)
      | none => [] := by
  unfold putsOf rowsFor
  rw [Table.lookup_map (fun payload => (payload, ttl)) key items.rows, Table.get?]
  cases Table.lookup key items.rows <;> rfl

theorem traced_msetIn {items : Table Bytes} (hne : items.keys ≠ [])
    (h : ∀ key ∈ items.keys, given key) (tier : Tier) (ttl : Duration) :
    (msetIn tier items ttl : CacheProc ScriptedLoader _).Traced fun told _ =>
      Comes given [] (putsOf [tier] (rowsFor items ttl)) told := by
  refine (traced_ask _).mono ?_
  rintro _ reply rfl
  refine ⟨List.forall_mem_singleton.mpr ⟨hne, h⟩, rfl, fun key => ?_⟩
  cases hget : items.get? key <;>
    simp [putsOf_rowsFor, changesOf, CacheRequest.changes, LayerOp.change, hget]

theorem traced_writeItems (tier : Tier) (ttl : Duration) {rows : List (String × Bytes)}
    (hrows : (rows.map Prod.fst).Nodup) (h : ∀ key ∈ rows.map Prod.fst, given key)
    (last : Except CacheError Unit) :
    (writeItems tier ttl last rows : CacheProc ScriptedLoader _).Traced fun told _ =>
      Comes given [] (putsOf [tier] (rows.map fun row => (row.1, row.2, ttl))) told := by
  induction rows generalizing last with
  | nil => exact Proc.traced_pure .nil
  | cons row rows ih =>
    obtain ⟨hnew, hrows⟩ := List.nodup_cons.mp hrows
    obtain ⟨hkey, hkeys⟩ := List.forall_mem_cons.mp h
    refine (traced_setIn hkey tier row.2 ttl).bind fun told result hset => ?_
    have hrest (last : Except CacheError Unit) := (ih hrows hkeys last).mono fun more _ hmore =>
      hset.row hmore (by simpa using hnew)
    cases result <;> exact hrest _

theorem traced_backfillAll {items : Table Bytes} (hne : items.keys ≠ [])
    (h : ∀ key ∈ items.keys, given key) (tiers : List Tier) :
    (stack.backfillAll items tiers : CacheProc ScriptedLoader Unit).Traced fun told _ =>
      Comes given [] (putsOf tiers (rowsFor items stack.settings.defaultTtl)) told := by
  induction tiers with
  | nil => exact Proc.traced_pure (Comes.nil.congr fun _ => (putsOf_no_tiers _).symm)
  | cons tier rest ih =>
    have hwrite : (if tier.batched then msetIn tier items stack.settings.defaultTtl
        else writeItems tier stack.settings.defaultTtl (.ok ()) items.rows :
        CacheProc ScriptedLoader _).Traced fun told _ =>
        Comes given [] (putsOf [tier] (rowsFor items stack.settings.defaultTtl)) told := by
      split
      · exact traced_msetIn hne h tier _
      · exact traced_writeItems tier _ items.nodup h _
    refine hwrite.bind fun told result hwritten => ?_
    refine Proc.Traced.mono (P := fun more _ => Comes given [] _ more) ?_
      fun more _ hmore => (hwritten.append hmore).congr fun _ => (putsOf_cons tier rest _ _).symm
    cases result <;> exact traced_notice Comes.stable _ ih

theorem traced_promote {β : Type} {rest : CacheProc ScriptedLoader β} {items : Table Bytes}
    {post : List CacheExchange → β → Prop} (h : ∀ key ∈ items.keys, given key) (tiers : List Tier)
    (hrest : ∀ copies, Comes given [] (putsOf tiers (rowsFor items stack.settings.defaultTtl)) copies →
      rest.Traced fun more b => post (copies ++ more) b) :
    (if items.isEmpty then rest else stack.backfillAll items tiers >>= fun _ => rest).Traced post := by
  split
  · rename_i hnone
    refine hrest [] (Comes.nil.congr fun full => ?_)
    have hrows : items.rows = [] := List.isEmpty_iff.mp hnone
    rw [rowsFor, hrows]
    rfl
  · rename_i hsome
    have hkeys : items.keys ≠ [] := by
      rw [Table.isEmpty, List.isEmpty_iff] at hsome
      simpa [Table.keys] using hsome
    exact (traced_backfillAll hkeys h tiers).bind fun copies _ hcopies => hrest copies hcopies

-- ---------------------------------------------------------------------------
-- Reading a batch
-- ---------------------------------------------------------------------------

/-- A value of the key was found, and copied upwards. -/
def Found (stack : Stack) (told : List CacheExchange) (key : String) (value : Bytes) : Prop :=
  ∃ payload content, Record.decode payload = some (.positive content) ∧
    value = (Record.positive content).value ∧ stack.Copied told (stack.fullKey key) payload

/-- A batch read adds a value to the hits for each key that was pending, or else the key is
missing and nothing is changed under it. -/
structure Answered (stack : Stack) (hits : Table Bytes) (pending : List String)
    (told : List CacheExchange) (batch : BatchGet) : Prop where
  missing : batch.missing.Sublist pending
  missed {key : String} : key ∈ batch.missing →
    changesOf (stack.fullKey key) told = [] ∧ batch.hits.get? key = hits.get? key
  found {key : String} : key ∈ pending → key ∉ batch.missing →
    ∃ value, batch.hits.get? key = some value ∧ stack.Found told key value
  others {key : String} : key ∉ pending → batch.hits.get? key = hits.get? key

structure Fetched (stack : Stack) (hits : Table Bytes) (pending : List String)
    (told : List CacheExchange) (result : Except CacheError BatchGet) : Prop where
  reads : stack.Reads (stack.Named pending) told
  fails {e : CacheError} : result = .error e → ∃ x ∈ told, ReadFails x
  answered {batch : BatchGet} : result = .ok batch → stack.Answered hits pending told batch

section
variable {told more : List CacheExchange} {key : String} {pending : List String}
  {hits found : Table Bytes} {sorted : Sorted}

theorem not_named (h : key ∉ pending) : ¬stack.Named pending (stack.fullKey key) := by
  rintro ⟨k, hk, heq⟩
  exact h (fullKey_inj.mp heq ▸ hk)

theorem Found.prepend {value : Bytes} (h : stack.Found more key value)
    (htold : changesOf (stack.fullKey key) told = []) : stack.Found (told ++ more) key value := by
  obtain ⟨payload, content, hdecode, hvalue, hcopied⟩ := h
  exact ⟨payload, content, hdecode, hvalue, hcopied.prepend htold⟩

theorem Found.append {value : Bytes} (h : stack.Found told key value)
    (hmore : changesOf (stack.fullKey key) more = []) : stack.Found (told ++ more) key value := by
  obtain ⟨payload, content, hdecode, hvalue, hcopied⟩ := h
  exact ⟨payload, content, hdecode, hvalue, hcopied.append hmore⟩

theorem Fetched.of_quiet (h : Quiet (stack.Named pending) told) :
    stack.Fetched hits pending told (.ok ⟨hits, pending⟩) := by
  refine ⟨.of_quiet h, by simp, ?_⟩
  rintro batch ⟨⟩
  exact ⟨List.Sublist.refl _, fun _ => ⟨h.changes _, rfl⟩, fun hk hnot => absurd hk hnot, fun _ => rfl⟩

/-- One layer was asked for the pending keys, its answer was sorted, and the values in it were copied
to the layers above. -/
structure Level (stack : Stack) (above : List Tier) (tier : Tier) (found hits : Table Bytes)
    (pending : List String) (sorted : Sorted) (told : List CacheExchange) : Prop where
  placed : ∃ below, stack.tiers = above ++ tier :: below
  sorts : sorted = pending.foldl (Sorted.add stack found) { hits := hits }
  fetched {key : String} : key ∈ pending →
    ∃ x ∈ told, Fetches x tier.slot (stack.fullKey key) (found.get? (stack.fullKey key))
  comes : Comes (stack.Named pending) []
    (putsOf above (rowsFor sorted.promoted stack.settings.defaultTtl)) told

section
variable {above : List Tier} {tier : Tier}

theorem Level.mem_pending (h : stack.Level above tier found hits pending sorted told) :
    key ∈ sorted.pending ↔ key ∈ pending ∧ stack.sifted found key = none := by
  rw [h.sorts, foldl_pending, List.nil_append, List.mem_filter, Option.isNone_iff_eq_none]

theorem Level.sublist (h : stack.Level above tier found hits pending sorted told) :
    sorted.pending.Sublist pending := by
  rw [h.sorts, foldl_pending, List.nil_append]
  exact List.filter_sublist

theorem Level.get_hits (h : stack.Level above tier found hits pending sorted told) (key : String) :
    sorted.hits.get? key =
      ((if key ∈ pending then stack.sifted found key else none).map Prod.snd).or (hits.get? key) := by
  rw [h.sorts, foldl_hits]

/-- Under a pending key there are the copies of what was found, if it was a value. -/
theorem Level.changes (h : stack.Level above tier found hits pending sorted told)
    (hkey : key ∈ pending) :
    changesOf (stack.fullKey key) told =
      match stack.sifted found key with
      | some (payload, _) => above.map fun tier => (tier.slot, .put payload stack.settings.defaultTtl)
      | none => [] := by
  rw [h.comes.changes, putsOf_rowsFor, h.sorts, foldl_promoted, if_pos hkey]
  cases stack.sifted found key <;> rfl

theorem Level.passed (h : stack.Level above tier found hits pending sorted told)
    (hkey : key ∈ sorted.pending) : changesOf (stack.fullKey key) told = [] := by
  obtain ⟨hpending, hnone⟩ := h.mem_pending.mp hkey
  rw [h.changes hpending, hnone]

theorem Level.finds {payload value : Bytes}
    (h : stack.Level above tier found hits pending sorted told) (hkey : key ∈ pending)
    (hsifted : stack.sifted found key = some (payload, value)) : stack.Found told key value := by
  obtain ⟨hget, content, hdecode, hvalue⟩ := sifted_eq_some hsifted
  obtain ⟨below, htiers⟩ := h.placed
  obtain ⟨x, hx, hfetches⟩ := h.fetched hkey
  have hchanges := h.changes hkey
  rw [hsifted] at hchanges
  exact ⟨payload, content, hdecode, hvalue, above, tier, below, htiers, ⟨x, hx, hget ▸ hfetches⟩, hchanges⟩

theorem Level.found_or_passed (h : stack.Level above tier found hits pending sorted told)
    (hproper : ∀ e ∈ more, e.1.Proper (stack.Named sorted.pending)) (hkey : key ∈ pending) :
    (∃ value, sorted.hits.get? key = some value ∧ key ∉ sorted.pending ∧
      stack.Found (told ++ more) key value) ∨
    key ∈ sorted.pending ∧ changesOf (stack.fullKey key) told = [] := by
  cases hsifted : stack.sifted found key with
  | none =>
    have hmem := h.mem_pending.mpr ⟨hkey, hsifted⟩
    exact .inr ⟨hmem, h.passed hmem⟩
  | some pair =>
    have hnot : key ∉ sorted.pending := fun hmem => by simp [(h.mem_pending.mp hmem).2] at hsifted
    refine .inl ⟨pair.2, ?_, hnot, (h.finds hkey hsifted).append ?_⟩
    · rw [h.get_hits, if_pos hkey, hsifted]
      rfl
    · exact changesOf_eq_nil hproper (not_named hnot)

theorem Level.reads (h : stack.Level above tier found hits pending sorted told)
    (hmore : stack.Reads (stack.Named sorted.pending) more) :
    stack.Reads (stack.Named pending) (told ++ more) := by
  have hproper : ∀ e ∈ told ++ more, e.1.Proper (stack.Named pending) := by
    refine List.forall_mem_append.mpr ⟨h.comes.proper, fun e he => (hmore.proper e he).mono ?_⟩
    rintro _ ⟨k, hk, rfl⟩
    exact ⟨k, h.sublist.mem hk, rfl⟩
  refine ⟨hproper, ?_, fun full => ?_⟩
  · rw [inputsOf_append, h.comes.inputs, hmore.inputs, List.nil_append]
  by_cases hnamed : stack.Named pending full
  · obtain ⟨k, hk, rfl⟩ := hnamed
    rcases h.found_or_passed hmore.proper hk with
      ⟨_, _, _, payload, content, hdecode, _, hcopied⟩ | ⟨_, hpassed⟩
    · exact .inr ⟨payload, content, hdecode, hcopied⟩
    · rcases hmore.copies (stack.fullKey k) with hnone | ⟨payload, value, hdecode, hcopied⟩
      · exact .inl (by rw [changesOf_append, hpassed, hnone, List.nil_append])
      · exact .inr ⟨payload, value, hdecode, hcopied.prepend hpassed⟩
  · exact .inl (changesOf_eq_nil hproper hnamed)

theorem Level.answered {batch : BatchGet}
    (h : stack.Level above tier found hits pending sorted told)
    (hproper : ∀ e ∈ more, e.1.Proper (stack.Named sorted.pending))
    (hmore : stack.Answered sorted.hits sorted.pending more batch) :
    stack.Answered hits pending (told ++ more) batch where
  missing := hmore.missing.trans h.sublist
  missed {k} hk := by
    have hmem := hmore.missing.mem hk
    obtain ⟨hchanges, hget⟩ := hmore.missed hk
    refine ⟨by rw [changesOf_append, h.passed hmem, hchanges, List.nil_append], ?_⟩
    rw [hget, h.get_hits, (h.mem_pending.mp hmem).2, ite_self]
    rfl
  found {k} hk hnot := by
    rcases h.found_or_passed hproper hk with ⟨value, hget, hgone, hfound⟩ | ⟨hmem, hpassed⟩
    · exact ⟨value, (hmore.others hgone).trans hget, hfound⟩
    · obtain ⟨value, hget, hfound⟩ := hmore.found hmem hnot
      exact ⟨value, hget, hfound.prepend hpassed⟩
  others {k} hk := by
    rw [hmore.others fun hmem => hk (h.sublist.mem hmem), h.get_hits, if_neg hk]
    rfl

/-- What one layer has is sorted, the values are copied upwards, and the rest is asked of the layers
below. -/
theorem Fetched.level {result : Except CacheError BatchGet}
    (hrest : stack.Fetched sorted.hits sorted.pending more result)
    (h : stack.Level above tier found hits pending sorted told) :
    stack.Fetched hits pending (told ++ more) result where
  reads := h.reads hrest.reads
  fails he := by
    obtain ⟨x, hx, hfails⟩ := hrest.fails he
    exact ⟨x, List.mem_append_right _ hx, hfails⟩
  answered hbatch := h.answered hrest.reads.proper (hrest.answered hbatch)

end

end

theorem traced_batchRead (hits : Table Bytes) (pending : List String) (n : Notice) :
    (do
      notice n
      pure (.ok ⟨hits, pending⟩) : CacheProc ScriptedLoader (Except CacheError BatchGet)).Traced
      (stack.Fetched hits pending) := by
  refine Proc.Traced.mono (P := fun told result =>
    Quiet (stack.Named pending) told ∧ result = .ok ⟨hits, pending⟩) ?_ ?_
  · exact traced_notice Comes.stable.and n (Proc.traced_pure ⟨.nil, rfl⟩)
  · rintro told _ ⟨hquiet, rfl⟩
    exact .of_quiet hquiet

theorem traced_fetchFrom {above below : List Tier} (htiers : stack.tiers = above ++ below)
    (hits : Table Bytes) (pending : List String) :
    (stack.fetchFrom hits pending above below : CacheProc ScriptedLoader _).Traced
      (stack.Fetched hits pending) := by
  induction below generalizing above hits pending with
  | nil => exact traced_batchRead hits pending _
  | cons tier below ih =>
    have hrest : stack.tiers = (above ++ [tier]) ++ below := by simpa using htiers
    unfold fetchFrom
    cases hempty : pending.isEmpty with
    | true =>
      simp only [↓reduceIte]
      rw [List.isEmpty_iff.mp hempty]
      exact traced_batchRead hits [] _
    | false =>
      simp only [Bool.false_eq_true, ↓reduceIte]
      have hne : pending.map stack.fullKey ≠ [] := by simpa [List.isEmpty_iff] using hempty
      have hnamed : ∀ full ∈ pending.map stack.fullKey, stack.Named pending full :=
        List.forall_mem_map.mpr fun key hkey => ⟨key, hkey, rfl⟩
      refine (traced_fetch hne hnamed).bind fun told result hasked => ?_
      cases result with
      | error e =>
        refine Proc.traced_pure ⟨.of_quiet (hasked.quiet.before .nil), fun _ => ?_, by simp⟩
        obtain ⟨x, hx, hfails⟩ := hasked.fails rfl
        exact ⟨x, List.mem_append_left _ hx, hfails⟩
      | ok found =>
        refine (traced_sortAll (stack.Named pending) found { hits := hits } pending).bind ?_
        rintro sorting sorted ⟨hsorting, hsorted⟩
        refine traced_promote (promoted_named hsorted) above fun copies hcopies => ?_
        have hlevel : stack.Level above tier found hits pending sorted (told ++ (sorting ++ copies)) := by
          refine ⟨⟨below, htiers⟩, hsorted, fun hkey => ?_, (hcopies.after hsorting).after hasked.quiet⟩
          obtain ⟨x, hx, hfetches⟩ := hasked.fetched rfl (List.mem_map_of_mem hkey)
          exact ⟨x, List.mem_append_left _ hx, hfetches⟩
        refine (ih hrest sorted.hits sorted.pending).mono fun more result hmore => ?_
        simpa only [List.append_assoc] using hmore.level hlevel

theorem traced_mget (keys : List String) :
    (stack.mget keys : CacheProc ScriptedLoader _).Traced
      (stack.Fetched {} (TtlMap.asked keys)) := by
  unfold mget
  rw [TtlMap.distinctKeys_eq]
  simp only
  split
  · rename_i hnone
    rw [List.isEmpty_iff.mp hnone]
    exact Proc.traced_pure (.of_quiet .nil)
  · exact traced_fetchFrom rfl {} (TtlMap.asked keys)

-- ---------------------------------------------------------------------------
-- Writing a batch
-- ---------------------------------------------------------------------------

theorem Drawn.keys {dues : List Due} {draws : List CacheExchange}
    {rows : List (String × Bytes × Duration)} (h : stack.Drawn dues draws rows) :
    rows.map Prod.fst = dues.map fun due => stack.fullKey due.key := by
  induction h with
  | nil => rfl
  | cons _ _ ih => exact congrArg _ ih

def duesFor (items : List (String × Bytes)) (ttl : Duration) : List Due :=
  items.map fun row => ⟨row.1, some row.2, ttl⟩

theorem traced_drawRows (given : String → Prop) (ttl : Duration) (items : List (String × Bytes)) :
    (stack.drawRows ttl items : CacheProc ScriptedLoader _).Traced fun told rows =>
      ∃ draws, stack.Drawn (duesFor items ttl) draws rows ∧ Comes given draws (fun _ => []) told := by
  induction items with
  | nil => exact Proc.traced_pure ⟨[], .nil, .nil⟩
  | cons item items ih =>
    refine (traced_jittered stack given ttl).bind fun told jittered hjittered => ?_
    obtain ⟨draws, hspread, hdraws⟩ := hjittered
    refine ih.bind fun more rows hrows => ?_
    obtain ⟨draws', hdrawn, hmore⟩ := hrows
    refine Proc.traced_pure ⟨draws ++ draws', .cons hspread hdrawn, ?_⟩
    simpa using hdraws.append hmore

theorem traced_writeRows (tier : Tier) {rows : List (String × Bytes × Duration)}
    (hrows : (rows.map Prod.fst).Nodup) (h : ∀ key ∈ rows.map Prod.fst, given key)
    (first : Except CacheError Unit) :
    (writeRows tier first rows : CacheProc ScriptedLoader _).Traced fun told _ =>
      Comes given [] (putsOf [tier] rows) told := by
  induction rows generalizing first with
  | nil => exact Proc.traced_pure .nil
  | cons row rows ih =>
    obtain ⟨hnew, hrows⟩ := List.nodup_cons.mp hrows
    obtain ⟨hkey, hkeys⟩ := List.forall_mem_cons.mp h
    refine (traced_setIn hkey tier row.2.1 row.2.2).bind fun told result hset => ?_
    refine Proc.Traced.mono (P := fun more _ => Comes given [] (putsOf [tier] rows) more) ?_
      fun more _ hmore => hset.row hmore hnew
    match result with
    | .ok () => exact ih hrows hkeys _
    | .error e => exact traced_notice Comes.stable _ (ih hrows hkeys _)

theorem traced_writeRowsEach {rows : List (String × Bytes × Duration)}
    (hrows : (rows.map Prod.fst).Nodup) (h : ∀ key ∈ rows.map Prod.fst, given key)
    (first : Except CacheError Unit) (tiers : List Tier) :
    (writeRowsEach rows first tiers : CacheProc ScriptedLoader _).Traced fun told _ =>
      Comes given [] (putsOf tiers rows) told := by
  induction tiers generalizing first with
  | nil => exact Proc.traced_pure (Comes.nil.congr fun _ => (putsOf_no_tiers _).symm)
  | cons tier rest ih =>
    refine (traced_writeRows tier hrows h first).bind fun told result hwritten => ?_
    refine (ih result).mono fun more _ hmore => ?_
    exact (hwritten.append hmore).congr fun _ => (putsOf_cons tier rest _ _).symm

theorem traced_mset (items : Table Bytes) (ttl : Duration) :
    (stack.mset items ttl : CacheProc ScriptedLoader _).Traced fun told _ =>
      stack.Settles (stack.Named items.keys) (duesFor items.rows (stack.resolveTtl ttl)) told := by
  unfold mset
  split
  · rename_i hnone
    rw [List.isEmpty_iff.mp hnone]
    exact Proc.traced_pure ⟨[], [], .nil, .nil⟩
  · refine (traced_drawRows (stack.Named items.keys) (stack.resolveTtl ttl) items.rows).bind ?_
    rintro told rows ⟨draws, hdrawn, hdraws⟩
    have hkeys : rows.map Prod.fst = items.keys.map stack.fullKey := by
      rw [hdrawn.keys, duesFor, Table.keys, List.map_map, List.map_map]
      rfl
    have hnodup : (rows.map Prod.fst).Nodup :=
      hkeys ▸ items.nodup.map fun _ _ => fullKey_inj.mp
    have hnamed : ∀ full ∈ rows.map Prod.fst, stack.Named items.keys full :=
      hkeys ▸ List.forall_mem_map.mpr fun key hkey => ⟨key, hkey, rfl⟩
    refine (traced_writeRowsEach hnodup hnamed _ _).mono fun more _ hmore => ?_
    exact ⟨draws, rows, hdrawn, by simpa using hdraws.append hmore⟩

-- ---------------------------------------------------------------------------
-- Reading a batch through a loader
-- ---------------------------------------------------------------------------

def learnedFor (stack : Stack) (asked : Duration) (loaded : Table Loaded) (key : String) : Due :=
  match loaded.get? key with
  | some item => ⟨key, some item.value, stack.loadedTtl asked item⟩
  | none => ⟨key, none, stack.settings.negativeTtl⟩

theorem learnedFor_key (asked : Duration) (loaded : Table Loaded) (key : String) :
    (stack.learnedFor asked loaded key).key = key := by
  unfold learnedFor
  split <;> rfl

theorem Settles.cons {due : Due} {dues : List Due} {told more : List CacheExchange}
    (h : stack.Settles given [due] told) (h' : stack.Settles given dues more)
    (hnew : due.key ∉ dues.map Due.key) : stack.Settles given (due :: dues) (told ++ more) := by
  obtain ⟨draws, rows, hdrawn, hcomes⟩ := h
  obtain ⟨draws', rows', hdrawn', hcomes'⟩ := h'
  cases hdrawn with
  | @cons _ _ _ _ ttl _ hspread hnil =>
    cases hnil
    refine ⟨_, _, .cons hspread hdrawn', ?_⟩
    rw [List.append_nil] at hcomes
    refine hcomes.row hcomes' ?_
    rw [hdrawn'.keys]
    intro hmem
    obtain ⟨other, hother, heq⟩ := List.mem_map.mp hmem
    exact hnew (List.mem_map.mpr ⟨other, hother, fullKey_inj.mp heq⟩)

/-- The part writes what was loaded for the missing keys to all layers, or that they have no value,
and adds the values to the hits. -/
structure Stores (stack : Stack) (given : String → Prop) (asked : Duration) (loaded : Table Loaded)
    (missing : List String) (hits : Table Bytes) (told : List CacheExchange) (values : Table Bytes) :
    Prop where
  settles : stack.Settles given (missing.map (stack.learnedFor asked loaded)) told
  values (key : String) : values.get? key =
    ((if key ∈ missing then loaded.get? key else none).map Loaded.value).or (hits.get? key)

section
variable {asked : Duration} {loaded : Table Loaded} {missing : List String} {hits values : Table Bytes}
  {told more : List CacheExchange} {key : String}

theorem Stores.stable : Stable given (stack.Stores given asked loaded missing hits) :=
  fun _ _ _ hquiet h => ⟨h.settles.after hquiet, h.values⟩

theorem Stores.before (h : stack.Stores given asked loaded missing hits told values)
    (hquiet : Quiet given more) : stack.Stores given asked loaded missing hits (told ++ more) values :=
  ⟨h.settles.before hquiet, h.values⟩

theorem Stores.cons {hits' : Table Bytes}
    (hdue : stack.Settles given [stack.learnedFor asked loaded key] told)
    (h : stack.Stores given asked loaded missing hits' more values) (hnew : key ∉ missing)
    (hhits : ∀ k, hits'.get? k =
      ((if k = key then loaded.get? key else none).map Loaded.value).or (hits.get? k)) :
    stack.Stores given asked loaded (key :: missing) hits (told ++ more) values := by
  refine ⟨hdue.cons h.settles ?_, fun k => ?_⟩
  · simpa [learnedFor_key] using hnew
  · rw [h.values, hhits]
    by_cases hk : k = key
    · subst hk
      simp [hnew]
    · simp [hk]

theorem traced_storeLoaded (loaded : Table Loaded) (asked : Duration) (hits : Table Bytes)
    (hmissing : missing.Nodup) (h : ∀ key ∈ missing, given (stack.fullKey key)) :
    (stack.storeLoaded loaded (stack.resolveTtl asked) hits missing :
      CacheProc ScriptedLoader _).Traced (stack.Stores given asked loaded missing hits) := by
  induction missing generalizing hits with
  | nil => exact Proc.traced_pure ⟨⟨[], [], .nil, .nil⟩, fun _ => rfl⟩
  | cons key keys ih =>
    obtain ⟨hnew, hkeys⟩ := List.nodup_cons.mp hmissing
    obtain ⟨hkey, hrest⟩ := List.forall_mem_cons.mp h
    unfold storeLoaded
    cases hget : loaded.get? key with
    | some item =>
      have hset := traced_set hkey item.value (stack.loadedTtl asked item)
      rw [resolveTtl_loadedTtl] at hset
      simp only [ttlOr_resolveTtl]
      have hgo := ih (hits.insert key item.value) hkeys hrest
      refine hset.bind fun told result hsettles => ?_
      refine Proc.Traced.mono (P := stack.Stores given asked loaded keys (hits.insert key item.value))
        ?_ fun more values hmore => Stores.cons ?_ hmore hnew fun k => ?_
      · match result with
        | .ok () => exact hgo
        | .error e => exact traced_notice Stores.stable _ hgo
      · simpa [learnedFor, hget] using hsettles
      · by_cases hk : k = key <;> simp [Table.get?_insert, hget, hk, Ne.symm]
    | none =>
      have hgo := ih hits hkeys hrest
      refine (traced_setNegative hkey).bind fun told result hsettles => ?_
      refine Proc.Traced.mono (P := stack.Stores given asked loaded keys hits)
        ?_ fun more values hmore => Stores.cons ?_ hmore hnew fun k => ?_
      · match result with
        | .ok () => exact hgo
        | .error e => exact traced_notice Stores.stable _ hgo
      · simpa [learnedFor, hget] using hsettles
      · simp [hget]

/-- How a batch is read through a loader: the loader is called once if keys are missing, and then
for just these; without it nothing happens after the read. -/
inductive Remembers (stack : Stack) (keys : List String) (loader : ScriptedLoader) (asked : Duration) :
    List CacheExchange → Except CacheError (Table Bytes) → Prop
  | unread {first : List CacheExchange} {e : CacheError}
      (h : (stack.mget keys).Ends first (.error e)) :
      Remembers stack keys loader asked first (.error e)
  | known {first : List CacheExchange} {batch : BatchGet}
      (h : (stack.mget keys).Ends first (.ok batch)) (hnone : batch.missing = []) :
      Remembers stack keys loader asked first (.ok batch.hits)
  | failed {first : List CacheExchange} {batch : BatchGet} {e : CacheError}
      (h : (stack.mget keys).Ends first (.ok batch)) (hsome : batch.missing ≠ []) :
      Remembers stack keys loader asked
        (first ++ [⟨.count .loaderCall, ()⟩, ⟨.loadMany loader batch.missing, .error e⟩]) (.error e)
  | loaded {first after : List CacheExchange} {batch : BatchGet} {loaded : Table Loaded}
      {values : Table Bytes} (h : (stack.mget keys).Ends first (.ok batch))
      (hsome : batch.missing ≠ [])
      (hstores : stack.Stores (stack.Named batch.missing) asked loaded batch.missing batch.hits after
        values) :
      Remembers stack keys loader asked
        (first ++ ⟨.count .loaderCall, ()⟩ :: ⟨.loadMany loader batch.missing, .ok loaded⟩ :: after)
        (.ok values)

theorem traced_mremember (keys : List String) (loader : ScriptedLoader) (options : RememberOptions) :
    (stack.mremember keys loader options).Traced
      (stack.Remembers keys loader (options.ttl.getD .zero)) := by
  have hends : (stack.mget keys : CacheProc ScriptedLoader _).Traced
      fun told result => (stack.mget keys).Ends told result :=
    fun _ _ hmget => hmget
  refine hends.bind fun first result hmget => ?_
  cases result with
  | error e => exact Proc.traced_pure ((List.append_nil first).symm ▸ .unread hmget)
  | ok batch =>
    simp only
    split
    · rename_i hnone
      exact Proc.traced_pure ((List.append_nil first).symm ▸ .known hmget (List.isEmpty_iff.mp hnone))
    · rename_i hsome
      rw [List.isEmpty_iff] at hsome
      have hmissing := ((traced_mget keys _ _ hmget).answered rfl).missing
      refine (traced_ask (.count .loaderCall)).bind ?_
      rintro _ counted rfl
      refine (traced_ask (.loadMany loader batch.missing)).bind ?_
      rintro _ reply rfl
      cases reply with
      | error e => exact Proc.traced_pure (.failed hmget hsome)
      | ok loaded =>
        have hgiven : ∀ key ∈ batch.missing, stack.Named batch.missing (stack.fullKey key) :=
          fun key hkey => ⟨key, hkey, rfl⟩
        refine (traced_storeLoaded loaded _ batch.hits (hmissing.nodup (TtlMap.nodup_asked keys)) hgiven).bind ?_
        intro after values hstores
        have hdone {more : List CacheExchange} (hmore : Quiet (stack.Named batch.missing) more) :
            stack.Remembers keys loader (options.ttl.getD .zero) (first ++ (⟨.count .loaderCall, ()⟩ ::
              ⟨.loadMany loader batch.missing, .ok loaded⟩ :: (after ++ more))) (.ok values) :=
          .loaded hmget hsome (hstores.before hmore)
        split
        · exact Proc.traced_pure (hdone .nil)
        · refine Proc.Traced.mono (P := fun more result =>
            Quiet (stack.Named batch.missing) more ∧ result = .ok values) ?_ ?_
          · exact traced_notice Comes.stable.and _ (Proc.traced_pure ⟨.nil, rfl⟩)
          · rintro more _ ⟨hmore, rfl⟩
            exact hdone hmore

end

end

end Stack

end StackedCache
