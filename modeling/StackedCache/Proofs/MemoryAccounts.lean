import StackedCache.Proofs.SoftLimit
import StackedCache.Proofs.TableSizes

/-!
# Accounts of a memory layer

What a memory layer counts, against what is to be seen of its history. Four
paths remove expired items: a lookup, the check of the limit, a clean-up and
the sweeper. Writes, deletes and a clear replace or remove items as well, and
those are not counted. So the items that have been written under keys not held
are held still, or have expired and been counted, or were deleted or cleared.
-/

namespace StackedCache

/-- How many keys are looked up, repeated keys included. -/
def MemoryAct.lookups : MemoryAct → Nat
  | .call (.get _) => 1
  | .call (.mget keys) => keys.length
  | _ => 0

namespace Memory

/-- How many of the lookups are answered with an entry. -/
def found (memory : Memory) (event : MemoryEvent) : Nat :=
  match event.act with
  | .call (.get key) => if (memory.perform event.now (.get key)).1.isSome then 1 else 0
  | .call (.mget keys) => keys.countP (memory.perform event.now (.mget keys)).1.hits.contains
  | _ => 0

/-- The items that are removed because they have expired, and not because the event puts something
in their place or removes what is under their keys. -/
def expired (memory : Memory) (event : MemoryEvent) : Table Item :=
  memory.entries.filter fun key item => item.isExpired event.now && event.act.change key == .kept &&
    !(memory.undergo event).entries.contains key

def fresh (memory : Memory) (event : MemoryEvent) : Table Bytes := event.act.written.without memory.entries

def deleted (memory : Memory) (event : MemoryEvent) : Nat :=
  match event.act with
  | .call (.delete key) => if memory.entries.contains key then 1 else 0
  | _ => 0

def dropped (memory : Memory) (event : MemoryEvent) : Nat :=
  match event.act with
  | .clear => memory.entries.size
  | _ => 0

/-- The sum of a count over the events of a history, each counted on the layer as it was then. -/
def total (count : Memory → MemoryEvent → Nat) (memory : Memory) : List MemoryEvent → Nat
  | [] => 0
  | event :: history => count memory event + (memory.undergo event).total count history

section
variable {memory : Memory} {event : MemoryEvent} {key : String} {now : Instant}

-- ---------------------------------------------------------------------------
-- Lookups
-- ---------------------------------------------------------------------------

theorem lookup_seen (memory : Memory) (now : Instant) (k key : String) :
    seen (memory.lookup now k).2.entries now key = seen memory.entries now key := by
  have hkept : Changed now (fun _ _ => default) key .kept memory.entries (memory.lookup now k).2.entries :=
    memory.lookup_changed now k key
  simp only [seen, hkept now (Nat.le_refl _), Change.apply, liveItem_live]

theorem lookup_gets (memory : Memory) (now : Instant) (key : String) :
    (memory.lookup now key).2.gets = memory.gets + 1 := by
  unfold lookup
  split
  · rfl
  · split <;> rfl

theorem lookup_hits (memory : Memory) (now : Instant) (key : String) :
    (memory.lookup now key).2.hits = memory.hits + if (memory.lookup now key).1.isSome then 1 else 0 := by
  unfold lookup
  split
  · rfl
  · split <;> rfl

theorem lookup_evictions (memory : Memory) (now : Instant) (key : String) :
    (memory.lookup now key).2.entries.size + (memory.lookup now key).2.evictions =
      memory.entries.size + memory.evictions := by
  unfold lookup
  cases hitem : memory.entries.get? key with
  | none => rfl
  | some item =>
    have herase := memory.entries.size_erase key
    simp only [Table.contains, hitem, Option.isSome_some, ↓reduceIte] at herase
    simp only
    split
    · simp only
      omega
    · rfl

theorem lookup_held (memory : Memory) (now : Instant) (k : String) (h : memory.entries.contains key = false) :
    (memory.lookup now k).2.entries.contains key = false := by
  unfold lookup
  split
  · exact h
  · split
    · simp [Table.contains_erase, h]
    · exact h

theorem lookupAll_gets (memory : Memory) (now : Instant) (keys : List String) :
    (memory.lookupAll now keys).2.gets = memory.gets + keys.length := by
  rw [lookupAll_eq_foldl]
  induction keys generalizing memory with
  | nil => rfl
  | cons key keys ih =>
    rw [List.foldl_cons, ih, lookup_gets, List.length_cons]
    omega

theorem lookupAll_hits (memory : Memory) (now : Instant) (keys : List String) :
    (memory.lookupAll now keys).2.hits =
      memory.hits + keys.countP fun key => (seen memory.entries now key).isSome := by
  rw [lookupAll_eq_foldl]
  induction keys generalizing memory with
  | nil => rfl
  | cons key keys ih =>
    have hsame : (fun k => (seen (memory.lookup now key).2.entries now k).isSome) =
        fun k => (seen memory.entries now k).isSome :=
      funext fun k => congrArg Option.isSome (memory.lookup_seen now key k)
    rw [List.foldl_cons, ih, hsame, lookup_hits, lookup_answer, List.countP_cons]
    omega

theorem lookupAll_evictions (memory : Memory) (now : Instant) (keys : List String) :
    (memory.lookupAll now keys).2.entries.size + (memory.lookupAll now keys).2.evictions =
      memory.entries.size + memory.evictions := by
  rw [lookupAll_eq_foldl]
  induction keys generalizing memory with
  | nil => rfl
  | cons key keys ih => exact (ih _).trans (memory.lookup_evictions now key)

theorem lookupAll_held (memory : Memory) (now : Instant) (keys : List String)
    (h : memory.entries.contains key = false) :
    (memory.lookupAll now keys).2.entries.contains key = false := by
  rw [lookupAll_eq_foldl]
  induction keys generalizing memory with
  | nil => exact h
  | cons k keys ih => exact ih _ (memory.lookup_held now k h)

-- ---------------------------------------------------------------------------
-- Sweeps and writes
-- ---------------------------------------------------------------------------

theorem live_size_le (items : Table Item) (now : Instant) : (items.live now).size ≤ items.size :=
  List.length_filter_le ..

theorem sweep_evictions (memory : Memory) (now : Instant) :
    (memory.sweep now).2.entries.size + (memory.sweep now).2.evictions =
      memory.entries.size + memory.evictions := by
  have hle := live_size_le memory.entries now
  simp only [sweep]
  omega

theorem sweep_held (memory : Memory) (now : Instant) (h : memory.entries.contains key = false) :
    (memory.sweep now).2.entries.contains key = false := by
  have hnone : memory.entries.get? key = none := by simpa [Table.contains] using h
  simp [sweep, Table.live, Table.contains_filter, hnone]

theorem enforceLimit_cases (memory : Memory) (now : Instant) :
    (memory.enforceLimit now).2 = memory ∨ (memory.enforceLimit now).2 = (memory.sweep now).2 := by
  unfold enforceLimit
  split
  · exact .inr rfl
  · exact .inl rfl

theorem enforceLimit_evictions (memory : Memory) (now : Instant) :
    (memory.enforceLimit now).2.entries.size + (memory.enforceLimit now).2.evictions =
      memory.entries.size + memory.evictions := by
  rcases memory.enforceLimit_cases now with h | h
  · rw [h]
  · rw [h, sweep_evictions]

theorem enforceLimit_held (memory : Memory) (now : Instant) (h : memory.entries.contains key = false) :
    (memory.enforceLimit now).2.entries.contains key = false := by
  rcases memory.enforceLimit_cases now with hsame | hswept
  · rwa [hsame]
  · rw [hswept]
    exact memory.sweep_held now h

theorem enforceLimit_counters (memory : Memory) (now : Instant) :
    (memory.enforceLimit now).2.gets = memory.gets ∧ (memory.enforceLimit now).2.hits = memory.hits := by
  rcases memory.enforceLimit_cases now with h | h <;> rw [h] <;> exact ⟨rfl, rfl⟩

theorem storeAll_contains (memory : Memory) (now : Instant) (ttl : Duration) (rows : List (String × Bytes)) :
    (memory.storeAll now ttl rows).entries.contains key =
      (decide (key ∈ rows.map Prod.fst) || memory.entries.contains key) := by
  induction rows generalizing memory with
  | nil => simp [storeAll]
  | cons row rows ih =>
    have hstore : (memory.store now ttl row.1 row.2).entries.contains key =
        (key == row.1 || memory.entries.contains key) :=
      Table.contains_insert ..
    refine (ih _).trans ?_
    rw [hstore, List.map_cons, Bool.or_left_comm, ← Bool.or_assoc, beq_eq_decide, ← Bool.decide_or]
    simp only [List.mem_cons]

theorem storeAll_counters (memory : Memory) (now : Instant) (ttl : Duration) (rows : List (String × Bytes)) :
    (memory.storeAll now ttl rows).gets = memory.gets ∧ (memory.storeAll now ttl rows).hits = memory.hits ∧
      (memory.storeAll now ttl rows).evictions = memory.evictions := by
  induction rows generalizing memory with
  | nil => exact ⟨rfl, rfl, rfl⟩
  | cons row rows ih => exact ih _

theorem storeAll_size (memory : Memory) (now : Instant) (ttl : Duration) (items : Table Bytes) :
    (memory.storeAll now ttl items.rows).entries.size =
      memory.entries.size + (items.without memory.entries).size := by
  have hstored (key : String) : (memory.storeAll now ttl items.rows).entries.contains key =
      (items.contains key || memory.entries.contains key) := by
    rw [storeAll_contains, items.contains_eq]
    rfl
  have hbalance := memory.entries.size_add_gained (memory.storeAll now ttl items.rows).entries
  have hgained : ((memory.storeAll now ttl items.rows).entries.without memory.entries).size =
      (items.without memory.entries).size := by
    refine Table.size_congr fun key => ?_
    rw [Table.contains_without, Table.contains_without, hstored]
    cases memory.entries.contains key <;> simp
  have hlost : (memory.entries.without (memory.storeAll now ttl items.rows).entries).size = 0 := by
    refine Table.size_eq_zero_of_contains fun key => ?_
    rw [Table.contains_without, hstored]
    cases memory.entries.contains key <;> simp
  omega

-- ---------------------------------------------------------------------------
-- One event
-- ---------------------------------------------------------------------------

theorem mget_contains (memory : Memory) (now : Instant) (keys : List String) :
    keys.countP (memory.perform now (.mget keys)).1.hits.contains =
      keys.countP fun key => (seen memory.entries now key).isSome := by
  refine List.countP_congr fun key hkey => ?_
  rw [Table.contains, mget_hits, if_pos hkey, read_eq_seen, Option.map_map]
  simp

theorem undergo_gets (memory : Memory) (event : MemoryEvent) :
    (memory.undergo event).gets = memory.gets + event.act.lookups := by
  obtain ⟨now, act⟩ := event
  cases act with
  | clear => rfl
  | sweep => rfl
  | call op =>
    cases op with
    | get key => exact memory.lookup_gets now key
    | mget keys => exact memory.lookupAll_gets now keys
    | set key payload ttl => exact (enforceLimit_counters _ now).1
    | delete key => rfl
    | mset items ttl =>
      rw [undergo_mset]
      split
      · rfl
      · exact (enforceLimit_counters _ now).1.trans (memory.storeAll_counters now ttl items.rows).1

theorem undergo_hits (memory : Memory) (event : MemoryEvent) :
    (memory.undergo event).hits = memory.hits + memory.found event := by
  obtain ⟨now, act⟩ := event
  cases act with
  | clear => rfl
  | sweep => rfl
  | call op =>
    cases op with
    | get key => exact memory.lookup_hits now key
    | mget keys =>
      have hhits := memory.lookupAll_hits now keys
      rw [← mget_contains] at hhits
      exact hhits
    | set key payload ttl => exact (enforceLimit_counters _ now).2
    | delete key => rfl
    | mset items ttl =>
      rw [undergo_mset]
      split
      · rfl
      · exact (enforceLimit_counters _ now).2.trans (memory.storeAll_counters now ttl items.rows).2.1

theorem undergo_held (memory : Memory) (event : MemoryEvent)
    (hheld : memory.entries.contains key = false) (hwritten : event.act.written.contains key = false) :
    (memory.undergo event).entries.contains key = false := by
  have hstored (ttl : Duration) :
      (memory.storeAll event.now ttl event.act.written.rows).entries.contains key = false := by
    rw [storeAll_contains, hheld, Bool.or_false]
    exact (event.act.written.contains_eq key).symm.trans hwritten
  obtain ⟨now, act⟩ := event
  cases act with
  | clear => rfl
  | sweep => exact memory.sweep_held now hheld
  | call op =>
    cases op with
    | get k => exact memory.lookup_held now k hheld
    | mget keys => exact memory.lookupAll_held now keys hheld
    | set k payload ttl => exact enforceLimit_held _ now (hstored ttl)
    | delete k => exact (memory.entries.contains_erase k key).trans (by simp [hheld])
    | mset items ttl =>
      rw [undergo_mset]
      split
      · exact hheld
      · exact enforceLimit_held _ now (hstored ttl)

theorem undergo_evictions (memory : Memory) (event : MemoryEvent) :
    (memory.undergo event).entries.size + (memory.undergo event).evictions +
        (memory.deleted event + memory.dropped event) =
      memory.entries.size + memory.evictions + (memory.fresh event).size := by
  have hstored (ttl : Duration) :
      ((memory.storeAll event.now ttl event.act.written.rows).enforceLimit event.now).2.entries.size +
          ((memory.storeAll event.now ttl event.act.written.rows).enforceLimit event.now).2.evictions =
        memory.entries.size + memory.evictions + (memory.fresh event).size := by
    rw [enforceLimit_evictions, storeAll_size, (memory.storeAll_counters ..).2.2]
    exact Nat.add_right_comm ..
  obtain ⟨now, act⟩ := event
  cases act with
  | clear =>
    have hcleared : 0 + memory.evictions + (0 + memory.entries.size) =
        memory.entries.size + memory.evictions + 0 := by
      omega
    exact hcleared
  | sweep => exact memory.sweep_evictions now
  | call op =>
    cases op with
    | get k => exact memory.lookup_evictions now k
    | mget keys => exact memory.lookupAll_evictions now keys
    | set k payload ttl => exact hstored ttl
    | delete k =>
      have herase := memory.entries.size_erase k
      have hdeleted : (memory.entries.erase k).size + memory.evictions +
          ((if memory.entries.contains k then 1 else 0) + 0) = memory.entries.size + memory.evictions + 0 := by
        omega
      exact hdeleted
    | mset items ttl =>
      rw [undergo_mset]
      split
      · rename_i hempty
        have hrows : items.rows = [] := List.isEmpty_iff.mp hempty
        simp [deleted, dropped, fresh, MemoryAct.written, Table.without, Table.filter, Table.size, hrows]
      · exact hstored ttl

def removed (memory : Memory) (event : MemoryEvent) : Table Item :=
  memory.entries.filter fun key _ => event.act.change key == .removed

theorem removed_none (memory : Memory) (hclear : event.act ≠ .clear)
    (hdelete : ∀ key, event.act ≠ .call (.delete key)) : (memory.removed event).size = 0 := by
  refine Table.size_eq_zero_of_contains fun key => ?_
  have hkept : event.act.change key ≠ .removed := by
    intro hremoved
    rcases MemoryAct.removed_cases hremoved with h | h
    · exact hclear h
    · exact hdelete key h
  rw [removed, Table.contains_filter_keys]
  simp [hkept]

theorem removed_size (memory : Memory) (event : MemoryEvent) :
    (memory.removed event).size = memory.deleted event + memory.dropped event := by
  obtain ⟨now, act⟩ := event
  cases act with
  | clear =>
    have hall : (memory.removed ⟨now, .clear⟩).rows = memory.entries.rows :=
      List.filter_eq_self.mpr fun _ _ => rfl
    simp [Table.size, hall, deleted, dropped]
  | sweep => exact memory.removed_none (by simp) (by simp)
  | call op =>
    cases op with
    | delete k =>
      have hsplit := memory.entries.size_filter_add fun key _ => key != k
      have herase := memory.entries.size_erase k
      have hremoved : (memory.removed ⟨now, .call (.delete k)⟩).size =
          (memory.entries.filter fun key _ => !(key != k)).size := by
        refine Table.size_congr fun key => ?_
        rw [removed, Table.contains_filter_keys, Table.contains_filter_keys]
        by_cases hk : key = k
        · simp [MemoryAct.change, LayerOp.change, hk]
        · have hkept : (Change.kept == Change.removed) = false := rfl
          simp [MemoryAct.change, LayerOp.change, Ne.symm hk, bne, beq_false_of_ne hk, hkept]
      simp only [Table.erase] at herase
      simp only [hremoved, deleted, dropped]
      omega
    | _ => exact memory.removed_none (by simp) (by simp)

theorem undergo_removed (memory : Memory) (h : event.act.change key = .removed) :
    (memory.undergo event).entries.contains key = false := by
  obtain ⟨now, act⟩ := event
  rcases MemoryAct.removed_cases h with rfl | rfl
  · rfl
  · exact (memory.entries.contains_erase key key).trans (by simp)

/-- Every item that is no longer held has been removed on purpose, or has expired. -/
theorem lost_size (memory : Memory) (event : MemoryEvent) :
    (memory.entries.without (memory.undergo event).entries).size =
      (memory.expired event).size + (memory.removed event).size := by
  have hsplit := (memory.entries.without (memory.undergo event).entries).size_filter_add
    fun key _ => event.act.change key == .kept
  have hexpired : ((memory.entries.without (memory.undergo event).entries).filter
      fun key _ => event.act.change key == .kept).size = (memory.expired event).size := by
    refine Table.size_congr fun key => ?_
    rw [Table.contains_filter_keys, Table.contains_without, expired, Table.contains_filter, Table.contains]
    cases hitem : memory.entries.get? key with
    | none => rfl
    | some item =>
      cases hgone : (memory.undergo event).entries.contains key with
      | true => simp
      | false =>
        cases hchange : event.act.change key == .kept with
        | false => simp
        | true =>
          have hdead : item.isExpired event.now = true := by
            by_contra hlive
            have hkept := undergo_live hitem (by simpa [Item.isLive] using hlive) (eq_of_beq hchange)
            simp [Table.contains, hkept] at hgone
          simp [hdead]
  have hremoved : ((memory.entries.without (memory.undergo event).entries).filter
      fun key _ => !(event.act.change key == .kept)).size = (memory.removed event).size := by
    refine Table.size_congr fun key => ?_
    rw [Table.contains_filter_keys, Table.contains_without, removed, Table.contains_filter_keys]
    cases hchange : event.act.change key with
    | kept => simp
    | removed => simp [memory.undergo_removed hchange]
    | put payload ttl => simp [Table.contains, memory.undergo_put hchange]
  omega

theorem gained_size (memory : Memory) (event : MemoryEvent) :
    ((memory.undergo event).entries.without memory.entries).size = (memory.fresh event).size := by
  refine Table.size_congr fun key => ?_
  rw [fresh, Table.contains_without, Table.contains_without]
  cases hheld : memory.entries.contains key with
  | true => simp
  | false =>
    cases hwritten : event.act.written.contains key with
    | false => simp [memory.undergo_held event hheld hwritten]
    | true =>
      rw [Table.contains, MemoryAct.written_get?] at hwritten
      cases hchange : event.act.change key with
      | kept => simp [hchange, Change.payload?] at hwritten
      | removed => simp [hchange, Change.payload?] at hwritten
      | put payload ttl => simp [Table.contains, memory.undergo_put hchange]

theorem undergo_expired (memory : Memory) (event : MemoryEvent) :
    (memory.undergo event).evictions = memory.evictions + (memory.expired event).size := by
  have hbalance := memory.entries.size_add_gained (memory.undergo event).entries
  have hevictions := memory.undergo_evictions event
  rw [lost_size, gained_size, removed_size] at hbalance
  omega

theorem found_le (memory : Memory) (event : MemoryEvent) : memory.found event ≤ event.act.lookups := by
  obtain ⟨now, act⟩ := event
  cases act with
  | clear => exact Nat.le_refl _
  | sweep => exact Nat.le_refl _
  | call op =>
    cases op with
    | get key =>
      simp only [found]
      split
      · exact Nat.le_refl _
      · exact Nat.zero_le _
    | mget keys => exact List.countP_le_length
    | _ => exact Nat.le_refl _

-- ---------------------------------------------------------------------------
-- Whole histories
-- ---------------------------------------------------------------------------

theorem total_mono {count count' : Memory → MemoryEvent → Nat}
    (h : ∀ memory event, count memory event ≤ count' memory event) (memory : Memory)
    (history : List MemoryEvent) : memory.total count history ≤ memory.total count' history := by
  induction history generalizing memory with
  | nil => exact Nat.le_refl _
  | cons event history ih => exact Nat.add_le_add (h memory event) (ih _)

theorem replay_total {measure : Memory → Nat} {count : Memory → MemoryEvent → Nat}
    (h : ∀ memory event, measure (memory.undergo event) = measure memory + count memory event)
    (memory : Memory) (history : List MemoryEvent) :
    measure (memory.replay history) = measure memory + memory.total count history := by
  induction history generalizing memory with
  | nil => rfl
  | cons event history ih =>
    have hrest := ih (memory.undergo event)
    rw [h memory event, Nat.add_assoc] at hrest
    exact hrest

theorem replay_balance (memory : Memory) (history : List MemoryEvent) :
    (memory.replay history).entries.size + (memory.replay history).evictions +
        (memory.total deleted history + memory.total dropped history) =
      memory.entries.size + memory.evictions + memory.total (fun m e => (m.fresh e).size) history := by
  induction history generalizing memory with
  | nil => rfl
  | cons event history ih =>
    have hevent := memory.undergo_evictions event
    have hrest := ih (memory.undergo event)
    have hreplay : memory.replay (event :: history) = (memory.undergo event).replay history := rfl
    rw [hreplay]
    simp only [total]
    omega

/-- The counters of a layer that was new at the start of the history, and where its items have gone. -/
structure Accounted (start after : Memory) (history : List MemoryEvent) : Prop where
  gets : after.gets = start.total (fun _ event => event.act.lookups) history
  hits : after.hits = start.total found history
  evictions : after.evictions = start.total (fun memory event => (memory.expired event).size) history
  bounded : after.hits ≤ after.gets
  balance : start.total (fun memory event => (memory.fresh event).size) history =
    after.entries.size + after.evictions + start.total deleted history + start.total dropped history

theorem accounted_replay (limit : Nat) (history : List MemoryEvent) :
    Accounted { limit } (({ limit } : Memory).replay history) history := by
  have hgets := replay_total undergo_gets { limit } history
  have hhits := replay_total undergo_hits { limit } history
  have hevictions := replay_total undergo_expired { limit } history
  have hbalance := replay_balance { limit } history
  rw [Nat.zero_add] at hgets hhits hevictions
  refine ⟨hgets, hhits, hevictions, ?_, ?_⟩
  · rw [hgets, hhits]
    exact total_mono found_le _ history
  · have hnew : ({ limit } : Memory).entries.size + ({ limit } : Memory).evictions = 0 := rfl
    omega

end

end Memory

end StackedCache
