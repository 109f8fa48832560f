import Mathlib.Data.List.Induction
import Mathlib.Data.List.Perm.Basic
import StackedCache.Proofs.LiveItems

/-!
# Histories of a memory layer

What a memory layer answers is settled by the last write of each key in its
history. Sweeps, lookups that meet an expired item, and the order in which a
batch is written leave no trace in the answers.
-/

namespace StackedCache

inductive MemoryAct where
  | call (op : LayerOp)
  | clear
  | sweep

structure MemoryEvent where
  now : Instant
  act : MemoryAct

def MemoryAct.change (key : String) : MemoryAct → Change
  | .call op => op.change key
  | .clear => .removed
  | .sweep => .kept

def Memory.undergo (memory : Memory) (event : MemoryEvent) : Memory :=
  match event.act with
  | .call op => (memory.perform event.now op).2.2
  | .clear => memory.clear
  | .sweep => (memory.sweep event.now).2

def Memory.replay (memory : Memory) (history : List MemoryEvent) : Memory :=
  history.foldl Memory.undergo memory

structure Write where
  payload : Bytes
  ttl : Duration
  since : Instant
  deriving DecidableEq

/-- The last write of the key after an event, of the one before it. -/
def MemoryEvent.leaves (key : String) (write : Option Write) (event : MemoryEvent) : Option Write :=
  (event.act.change key).apply (Write.mk · · event.now) write

/-- The last write of a key that nothing has removed since. -/
def lastWrite (key : String) (history : List MemoryEvent) : Option Write :=
  history.foldl (MemoryEvent.leaves key) none

def setEach (now : Instant) (ttl : Duration) (rows : List (String × Bytes)) : List MemoryEvent :=
  rows.map fun row => ⟨now, .call (.set row.1 row.2 ttl)⟩

namespace Write

/-- What is to be seen of a write, with the nanoseconds that are left. Without a time to live, or
when the clock does not reach its end, it lasts forever. -/
def seen (write : Write) (now : Instant) : Option (Bytes × Option Nat) :=
  let deadline := write.since + write.ttl.nanos
  if write.ttl.isZero ∨ Instant.horizon ≤ deadline then some (write.payload, none)
  else if now < deadline then some (write.payload, some (deadline - now))
  else none

def item (write : Write) : Item := Memory.item write.payload write.ttl write.since

end Write

def Entry.shown (entry : Entry) : Bytes × Option Nat :=
  (entry.payload, entry.remaining.map Duration.nanos)

def Memory.read (memory : Memory) (now : Instant) (key : String) : Option (Bytes × Option Nat) :=
  (memory.perform now (.get key)).1.map Entry.shown

-- ---------------------------------------------------------------------------
-- One event
-- ---------------------------------------------------------------------------

section
variable {memory : Memory} {history : List MemoryEvent} {key : String} {now t : Instant}

theorem Memory.undergo_changed (memory : Memory) (event : MemoryEvent) (key : String) :
    Changed event.now (item · · event.now) key (event.act.change key) memory.entries
      (memory.undergo event).entries := by
  obtain ⟨now, act⟩ := event
  cases act with
  | call op => exact memory.perform_changed now op key
  | clear => exact fun _ _ => rfl
  | sweep => exact memory.sweep_changed now key

/-- A live item stays as it is unless it is overwritten or removed on purpose. -/
theorem Memory.undergo_live {event : MemoryEvent} {item : Item}
    (hitem : memory.entries.get? key = some item) (hlive : item.isLive event.now)
    (hkept : event.act.change key = .kept) : (memory.undergo event).entries.get? key = some item := by
  have hbefore : memory.entries.liveItem? key event.now = some item := by
    simp [Table.liveItem?, hitem, Option.filter, hlive]
  have hafter := memory.undergo_changed event key event.now (Nat.le_refl _)
  rw [hkept, hbefore] at hafter
  simp only [Change.apply, Option.filter_some, hlive, ↓reduceIte] at hafter
  exact (Option.filter_eq_some_iff.mp hafter).1

-- ---------------------------------------------------------------------------
-- Whole histories
-- ---------------------------------------------------------------------------

theorem lastWrite_concat (key : String) (history : List MemoryEvent) (event : MemoryEvent) :
    lastWrite key (history ++ [event]) = event.leaves key (lastWrite key history) := by
  simp [lastWrite, List.foldl_append]

/-- The live item of a key is that of its last write. -/
theorem Memory.replay_live (hempty : memory.entries = {}) (hpast : ∀ event ∈ history, event.now ≤ t) :
    (memory.replay history).entries.liveItem? key t =
      ((lastWrite key history).map Write.item).filter (·.isLive t) := by
  induction history using List.reverseRecOn with
  | nil => simp only [replay, List.foldl_nil, hempty]; rfl
  | append_singleton history event ih =>
    obtain ⟨hpast, hlast⟩ := List.forall_mem_append.mp hpast
    have hchanged := (memory.replay history).undergo_changed event key t (hlast _ List.mem_cons_self)
    rw [ih hpast, Change.apply_live] at hchanged
    simp only [lastWrite_concat, MemoryEvent.leaves, Change.apply_map, replay, List.foldl_append]
    exact hchanged

theorem lastWrite_since {write : Write} (hpast : ∀ event ∈ history, event.now ≤ t)
    (h : lastWrite key history = some write) : write.since ≤ t := by
  induction history using List.reverseRecOn with
  | nil => cases h
  | append_singleton history event ih =>
    obtain ⟨hpast, hlast⟩ := List.forall_mem_append.mp hpast
    rw [lastWrite_concat, MemoryEvent.leaves] at h
    cases hchange : event.act.change key with
    | kept =>
      rw [hchange] at h
      exact ih hpast h
    | removed =>
      rw [hchange] at h
      cases h
    | put payload ttl =>
      rw [hchange] at h
      cases h
      exact hlast _ List.mem_cons_self

theorem Write.shown_item {write : Write} (hsince : write.since ≤ now) :
    (((some write.item).filter (·.isLive now)).map (Entry.ofItem now)).map Entry.shown =
      write.seen now := by
  have hbound := write.ttl.bounded
  unfold Write.seen Write.item Memory.item Instant.after?
  cases hzero : write.ttl.isZero with
  | true => simp [Item.isLive, Item.isExpired, Entry.ofItem, Entry.shown, Item.remaining]
  | false =>
    by_cases hreach : write.since + write.ttl.nanos < Instant.horizon
    · by_cases hlive : now < write.since + write.ttl.nanos
      · have hleft : write.since + write.ttl.nanos - now < 2 ^ 64 * 10 ^ 9 :=
          Nat.lt_of_le_of_lt (Nat.sub_le_iff_le_add'.mpr (Nat.add_le_add_right hsince _)) hbound
        simp [Option.filter, Item.isLive, Item.isExpired, Entry.ofItem, Entry.shown, Item.remaining,
          hreach, hlive, Duration.ofNanos, hleft]
      · simp [Option.filter, Item.isLive, Item.isExpired, hreach, hlive, Nat.le_of_not_lt hlive]
    · simp [Item.isLive, Item.isExpired, Entry.ofItem, Entry.shown, Item.remaining, hreach,
        Nat.le_of_not_lt hreach]

theorem Write.left_pos {write : Write} {payload : Bytes} {left : Nat}
    (h : write.seen now = some (payload, some left)) : 0 < left := by
  simp only [Write.seen] at h
  split at h
  · cases h
  · split at h
    · rename_i hlive
      cases h
      exact Nat.sub_pos_of_lt hlive
    · cases h

theorem foldl_setEach {rows : List (String × Bytes)} {ttl : Duration} (key : String)
    (hrows : (rows.map Prod.fst).Nodup) (write : Option Write) :
    (setEach now ttl rows).foldl (MemoryEvent.leaves key) write =
      match Table.lookup key rows with
      | some payload => some ⟨payload, ttl, now⟩
      | none => write := by
  induction rows generalizing write with
  | nil => rfl
  | cons row rows ih =>
    obtain ⟨hnew, hrows⟩ := List.nodup_cons.mp hrows
    rw [setEach, List.map_cons, List.foldl_cons, ← setEach, ih hrows]
    by_cases hk : row.1 = key
    · subst hk
      simp [Table.lookup_eq_none hnew, Table.lookup, MemoryEvent.leaves, MemoryAct.change,
        LayerOp.change, Change.apply]
    · simp [Table.lookup, hk, MemoryEvent.leaves, MemoryAct.change, LayerOp.change, Change.apply]

/-- A batch leaves the same last writes as its rows, written one by one in any order. -/
theorem lastWrite_setEach {earlier later : List MemoryEvent} {items : Table Bytes}
    {rows : List (String × Bytes)} {ttl : Duration} (hrows : rows.Perm items.rows) :
    lastWrite key (earlier ++ setEach now ttl rows ++ later) =
      lastWrite key (earlier ++ ⟨now, .call (.mset items ttl)⟩ :: later) := by
  have hnodup := ((hrows.map Prod.fst).nodup_iff).mpr items.nodup
  simp only [lastWrite, List.foldl_append, List.foldl_cons, foldl_setEach key hnodup,
    Table.lookup_perm hrows hnodup]
  congr 1
  simp only [MemoryEvent.leaves, MemoryAct.change, LayerOp.change, Table.get?]
  cases Table.lookup key items.rows <;> rfl

theorem Memory.read_eq_seen (memory : Memory) (now : Instant) (key : String) :
    memory.read now key = (seen memory.entries now key).map Entry.shown :=
  congrArg (Option.map Entry.shown) (memory.lookup_answer now key)

theorem Memory.read_replay (hempty : memory.entries = {})
    (hpast : ∀ event ∈ history, event.now ≤ now) (key : String) :
    (memory.replay history).read now key = (lastWrite key history).bind (·.seen now) := by
  rw [read_eq_seen, seen, replay_live hempty hpast]
  cases hwrite : lastWrite key history with
  | none => rfl
  | some write => exact Write.shown_item (lastWrite_since hpast hwrite)

theorem Memory.mget_hits (memory : Memory) (now : Instant) (keys : List String) (key : String) :
    (memory.perform now (.mget keys)).1.hits.get? key =
      if key ∈ keys then (memory.read now key).map Prod.fst else none := by
  have hanswer := memory.lookupAll_answer now keys
  simp only [perform, hanswer, BatchHits.ofFound_hits, read_eq_seen, Option.map_map]
  rfl

theorem Memory.mget_missing (memory : Memory) (now : Instant) (keys : List String) :
    (memory.perform now (.mget keys)).1.missing =
      keys.filter fun key => (memory.read now key).isNone := by
  have hanswer := memory.lookupAll_answer now keys
  simp only [perform, hanswer, BatchHits.ofFound_missing, read_eq_seen, Option.isNone_map]

/-- Whatever its limit, a memory layer answers as a map from keys to their last writes, each of
which is seen until its time to live has passed. Lookups, sweeps and writes of other keys leave a
live item alone, and a batch is as good as its rows one by one. -/
theorem memory_refines_map (hempty : memory.entries = {})
    (hpast : ∀ event ∈ history, event.now ≤ now) :
    (∀ key, (memory.replay history).read now key = (lastWrite key history).bind (·.seen now)) ∧
    (∀ key payload left,
      (memory.replay history).read now key = some (payload, some left) → 0 < left) ∧
    (∀ keys,
      (∀ key, ((memory.replay history).perform now (.mget keys)).1.hits.get? key =
        if key ∈ keys then ((memory.replay history).read now key).map Prod.fst else none) ∧
      ((memory.replay history).perform now (.mget keys)).1.missing =
        keys.filter fun key => ((memory.replay history).read now key).isNone) ∧
    (∀ (event : MemoryEvent) key item, (memory.replay history).entries.get? key = some item →
      item.isLive event.now → event.act.change key = .kept →
      ((memory.replay history).undergo event).entries.get? key = some item) ∧
    (∀ earlier later t items ttl rows,
      history = earlier ++ ⟨t, .call (.mset items ttl)⟩ :: later → rows.Perm items.rows →
      ∀ key, (memory.replay (earlier ++ setEach t ttl rows ++ later)).read now key =
        (memory.replay history).read now key) := by
  refine ⟨Memory.read_replay hempty hpast, fun key payload left h => ?_,
    fun keys => ⟨Memory.mget_hits _ now keys, Memory.mget_missing _ now keys⟩,
    fun _ _ _ => Memory.undergo_live, fun earlier later t items ttl rows hhistory hrows key => ?_⟩
  · rw [Memory.read_replay hempty hpast] at h
    obtain ⟨write, -, hseen⟩ := Option.bind_eq_some_iff.mp h
    exact Write.left_pos hseen
  · subst hhistory
    obtain ⟨hearlier, hlater⟩ := List.forall_mem_append.mp hpast
    obtain ⟨hbatch, hlater⟩ := List.forall_mem_cons.mp hlater
    have hpast' : ∀ event ∈ earlier ++ setEach t ttl rows ++ later, event.now ≤ now := by
      refine List.forall_mem_append.mpr ⟨List.forall_mem_append.mpr ⟨hearlier, ?_⟩, hlater⟩
      exact List.forall_mem_map.mpr fun _ _ => hbatch
    rw [Memory.read_replay hempty hpast', Memory.read_replay hempty hpast, lastWrite_setEach hrows]

/-- Above a limit of one entry, at the very end of a time to live: the other entry stays, though
nothing ever ends it. -/
theorem memory_refines_map_full :
    let history : List MemoryEvent :=
      [⟨0, .call (.set "a" [1] ⟨5, by decide⟩)⟩, ⟨1, .call (.set "b" [2] .zero)⟩, ⟨2, .sweep⟩]
    let memory : Memory := (({ limit := 1 } : Memory).replay history)
    memory.read 4 "a" = some ([1], some 1) ∧ memory.read 5 "a" = none ∧
      memory.read 5 "b" = some ([2], none) := by
  refine ⟨?_, ?_, ?_⟩
  · exact ((memory_refines_map rfl (by decide)).1 "a").trans (by decide)
  · exact ((memory_refines_map rfl (by decide)).1 "a").trans (by decide)
  · exact ((memory_refines_map rfl (by decide)).1 "b").trans (by decide)

end

end StackedCache
