import StackedCache.Proofs.MemoryHistory

/-!
# The soft limit of a memory layer

A write checks the limit once, when everything is in. Above the limit the
expired items go, those that nobody has looked up as well, and only they: a
layer may hold any number of live items.
-/

namespace StackedCache

def MemoryAct.written : MemoryAct → Table Bytes
  | .call (.set key payload _) => ({} : Table Bytes).insert key payload
  | .call (.mset items _) => items
  | _ => {}

inductive MemoryAct.Upkeep : MemoryAct → Prop
  | get (key : String) : Upkeep (.call (.get key))
  | mget (keys : List String) : Upkeep (.call (.mget keys))
  | sweep : Upkeep .sweep

def Change.payload? : Change → Option Bytes
  | .put payload _ => some payload
  | _ => none

theorem MemoryAct.written_get? (act : MemoryAct) (key : String) :
    act.written.get? key = (act.change key).payload? := by
  cases act with
  | clear => rfl
  | sweep => rfl
  | call op =>
    cases op with
    | get k => rfl
    | delete k =>
      simp only [change, LayerOp.change]
      split <;> rfl
    | mget keys => rfl
    | set k payload ttl =>
      refine (Table.get?_insert ..).trans ?_
      simp only [change, LayerOp.change]
      split <;> rfl
    | mset items ttl =>
      simp only [written, change, LayerOp.change]
      cases items.get? key <;> rfl

theorem MemoryAct.removed_cases {act : MemoryAct} {key : String} (h : act.change key = .removed) :
    act = .clear ∨ act = .call (.delete key) := by
  cases act with
  | clear => exact .inl rfl
  | sweep => cases h
  | call op =>
    cases op with
    | get k => cases h
    | mget keys => cases h
    | delete k =>
      by_cases hk : k = key
      · exact .inr (hk ▸ rfl)
      · simp [change, LayerOp.change, hk] at h
    | set k payload ttl =>
      simp only [change, LayerOp.change] at h
      split at h <;> cases h
    | mset items ttl =>
      simp only [change, LayerOp.change] at h
      split at h <;> cases h

theorem MemoryAct.change_kept {act : MemoryAct} {key : String} (hwritten : act.written.isEmpty = false)
    (hnone : act.written.get? key = none) : act.change key = .kept := by
  cases hchange : act.change key with
  | kept => rfl
  | removed => rcases removed_cases hchange with rfl | rfl <;> cases hwritten
  | put payload ttl =>
    rw [written_get?, hchange] at hnone
    cases hnone

theorem MemoryAct.Upkeep.change {act : MemoryAct} (h : act.Upkeep) (key : String) : act.change key = .kept := by
  cases h <;> rfl

namespace Memory

variable {memory : Memory} {event : MemoryEvent} {key : String} {now : Instant} {item : Item}

theorem undergo_mset (memory : Memory) (now : Instant) (items : Table Bytes) (ttl : Duration) :
    memory.undergo ⟨now, .call (.mset items ttl)⟩ =
      if items.isEmpty then memory else ((memory.storeAll now ttl items.rows).enforceLimit now).2 := by
  simp only [undergo, perform]
  split <;> rfl

theorem undergo_written (memory : Memory) (h : event.act.written.isEmpty = false) :
    ∃ ttl, memory.undergo event =
      ((memory.storeAll event.now ttl event.act.written.rows).enforceLimit event.now).2 := by
  obtain ⟨now, act⟩ := event
  cases act with
  | clear => cases h
  | sweep => cases h
  | call op =>
    cases op with
    | get key => cases h
    | delete key => cases h
    | mget keys => cases h
    | set key payload ttl => exact ⟨ttl, rfl⟩
    | mset items ttl =>
      have hsome : items.isEmpty = false := h
      refine ⟨ttl, ?_⟩
      rw [undergo_mset, hsome]
      rfl

-- ---------------------------------------------------------------------------
-- The limit
-- ---------------------------------------------------------------------------

theorem lookupAll_eq_foldl (memory : Memory) (now : Instant) (keys : List String) :
    (memory.lookupAll now keys).2 = keys.foldl (fun memory key => (memory.lookup now key).2) memory := by
  induction keys generalizing memory with
  | nil => rfl
  | cons key keys ih =>
    simp only [lookupAll, List.foldl_cons, ← ih]
    split <;> rfl

theorem lookup_limit (memory : Memory) (now : Instant) (key : String) :
    (memory.lookup now key).2.limit = memory.limit := by
  unfold lookup
  split
  · rfl
  · split <;> rfl

theorem foldl_limit {β : Type} {step : Memory → β → Memory} (h : ∀ memory b, (step memory b).limit = memory.limit)
    (memory : Memory) (steps : List β) : (steps.foldl step memory).limit = memory.limit := by
  induction steps generalizing memory with
  | nil => rfl
  | cons b steps ih => exact (ih _).trans (h memory b)

theorem storeAll_limit (memory : Memory) (now : Instant) (ttl : Duration) (rows : List (String × Bytes)) :
    (memory.storeAll now ttl rows).limit = memory.limit := by
  have hstore (memory : Memory) (row : String × Bytes) :
      (memory.store now ttl row.1 row.2).limit = memory.limit :=
    rfl
  exact foldl_limit hstore memory rows

theorem enforceLimit_limit (memory : Memory) (now : Instant) :
    (memory.enforceLimit now).2.limit = memory.limit := by
  unfold enforceLimit
  split <;> rfl

theorem perform_limit (memory : Memory) (now : Instant) (op : LayerOp) :
    (memory.perform now op).2.2.limit = memory.limit := by
  cases op with
  | get key => exact memory.lookup_limit now key
  | set key payload ttl => exact (memory.store now ttl key payload).enforceLimit_limit now
  | delete key => rfl
  | mget keys =>
    exact (congrArg limit (memory.lookupAll_eq_foldl now keys)).trans
      (foldl_limit (fun memory key => memory.lookup_limit now key) memory keys)
  | mset items ttl =>
    simp only [perform]
    split
    · rfl
    · exact (enforceLimit_limit _ now).trans (memory.storeAll_limit now ttl items.rows)

theorem replay_limit (memory : Memory) (history : List MemoryEvent) :
    (memory.replay history).limit = memory.limit := by
  refine foldl_limit (fun memory event => ?_) memory history
  obtain ⟨now, act⟩ := event
  cases act with
  | call op => exact memory.perform_limit now op
  | clear => rfl
  | sweep => rfl

theorem enforceLimit_entries (hlimit : 0 < memory.limit) (now : Instant) :
    (memory.enforceLimit now).2.entries.size ≤ memory.limit ∨
      (memory.enforceLimit now).2.entries = memory.entries.live now := by
  unfold enforceLimit
  split
  · exact .inr rfl
  · rename_i hbelow
    exact .inl (Nat.le_of_not_lt fun hover => hbelow ⟨hlimit, hover⟩)

/-- A layer with a limit is within it after a write, or all that it holds is live. -/
theorem undergo_entries (hlimit : 0 < memory.limit) (h : event.act.written.isEmpty = false) :
    (memory.undergo event).entries.size ≤ memory.limit ∨
      (memory.undergo event).entries.live event.now = (memory.undergo event).entries := by
  obtain ⟨ttl, hundergo⟩ := memory.undergo_written h
  have hstored : (memory.storeAll event.now ttl event.act.written.rows).limit = memory.limit :=
    memory.storeAll_limit ..
  rw [hundergo, ← hstored]
  refine (enforceLimit_entries (hstored ▸ hlimit) event.now).imp_right fun hlive => ?_
  rw [hlive]
  simp [Table.live, Table.filter, List.filter_filter]

theorem undergo_put {payload : Bytes} {ttl : Duration} (memory : Memory)
    (h : event.act.change key = .put payload ttl) :
    (memory.undergo event).entries.get? key = some (Memory.item payload ttl event.now) := by
  have hafter := memory.undergo_changed event key event.now (Nat.le_refl _)
  rw [h, Change.apply, Option.filter_some, item_isLive, if_pos rfl] at hafter
  exact (Option.filter_eq_some_iff.mp hafter).1

end Memory

/-- What a write makes of the items of a layer with a limit. -/
structure MemoryEvent.FitsIn (event : MemoryEvent) (limit : Nat) (before after : Table Item) : Prop where
  bounded : after.size ≤ max limit (after.live event.now).size
  swept (key : String) (item : Item) : limit < after.size → after.get? key = some item → item.isLive event.now
  kept (key : String) (item : Item) : event.act.written.get? key = none → before.get? key = some item →
    item.isLive event.now → after.get? key = some item
  written (key : String) (payload : Bytes) : event.act.written.get? key = some payload →
    ∃ ttl, event.act.change key = .put payload ttl ∧
      after.get? key = some (Memory.item payload ttl event.now)

/-- Whatever has happened to a layer with a limit, after a write of any number of rows it holds no more
items than its limit allows, or nothing but live ones; the rows are in, and live items under other keys
stay as they are. Lookups and sweeps leave all live items as they are. -/
theorem soft_limit {limit : Nat} (hlimit : 0 < limit) (history : List MemoryEvent) (event : MemoryEvent) :
    let before := ({ limit } : Memory).replay history
    let after := before.undergo event
    (event.act.written.isEmpty = false → event.FitsIn limit before.entries after.entries) ∧
    (event.act.Upkeep → ∀ key item, before.entries.get? key = some item → item.isLive event.now →
      after.entries.get? key = some item) := by
  intro before after
  have hbefore : before.limit = limit := Memory.replay_limit ..
  refine ⟨fun hwritten => ?_, fun hupkeep key item hitem hlive => ?_⟩
  · have hfull := Memory.undergo_entries (hbefore ▸ hlimit) hwritten
    constructor
    case bounded =>
      rcases hfull with hsmall | hlive
      · rw [hbefore] at hsmall
        exact Nat.le_trans hsmall (Nat.le_max_left ..)
      · rw [hlive]
        exact Nat.le_max_right ..
    case swept =>
      intro key item hover hitem
      rcases hfull with hsmall | hlive
      · exact absurd hover (Nat.not_lt_of_le (hbefore ▸ hsmall))
      · rw [← hlive, Table.live, Table.get?_filter] at hitem
        exact (Option.filter_eq_some_iff.mp hitem).2
    case kept =>
      intro key item hnone hitem hlive
      exact Memory.undergo_live hitem hlive (MemoryAct.change_kept hwritten hnone)
    case written =>
      intro key payload hsome
      rw [MemoryAct.written_get?] at hsome
      cases hchange : event.act.change key with
      | kept => simp [hchange, Change.payload?] at hsome
      | removed => simp [hchange, Change.payload?] at hsome
      | put payload' ttl =>
        rw [hchange] at hsome
        cases hsome
        exact ⟨ttl, rfl, before.undergo_put hchange⟩
  · exact Memory.undergo_live hitem hlive (hupkeep.change key)

/-- A batch on a layer that is over its limit already: the expired item goes, the live one stays. -/
theorem soft_limit_batch :
    let before : Memory := ({ limit := 1 } : Memory).replay
      [⟨0, .call (.set "a" [1] ⟨5, by decide⟩)⟩, ⟨1, .call (.set "b" [2] .zero)⟩]
    let after := before.undergo ⟨5, .call (.mset (.ofList [("c", [3]), ("d", [4])]) .zero)⟩
    after.entries.get? "a" = none ∧ after.entries.get? "b" = some ⟨[2], none⟩ ∧
      after.entries.size = 3 ∧ after.entries.size ≤ max 1 (after.entries.live 5).size := by
  have hlimit := soft_limit Nat.one_pos
    [⟨0, .call (.set "a" [1] ⟨5, by decide⟩)⟩, ⟨1, .call (.set "b" [2] .zero)⟩]
    ⟨5, .call (.mset (.ofList [("c", [3]), ("d", [4])]) .zero)⟩
  obtain ⟨hwritten, -⟩ := hlimit
  have hfits := hwritten (by decide)
  exact ⟨by decide, hfits.kept "b" ⟨[2], none⟩ (by decide) (by decide) (by decide), by decide, hfits.bounded⟩

end StackedCache
