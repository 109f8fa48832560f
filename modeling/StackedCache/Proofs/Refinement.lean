import StackedCache.Proofs.Batches

/-!
# Layers refine one map

A cache over any layers, used by one caller at a time, answers as one map with
deadlines does, while time passes and memory layers are swept.
-/

namespace StackedCache

open Simulation Concurrency

inductive Move where
  | call (work : Work)
  | pass (nanos : Nat)
  /-- A memory layer removes what has expired. -/
  | sweep (memory : Nat)

def elapsed : List Move → Nat
  | [] => 0
  | .pass nanos :: moves => nanos + elapsed moves
  | _ :: moves => elapsed moves

/-- The values that come with a call: its own, and those that its loader returns. -/
def Simulation.Work.values : Work → List Bytes
  | .set _ value _ => [value]
  | .mset items _ => items.rows.map Prod.snd
  | .remember _ loader _ => (loader.single.toOption.map Loaded.value).toList
  | .mremember _ loader _ => (loader.many.toOption.map Table.rows).getD [] |>.map (·.2.value)
  | _ => []

def Scene.play (stack : Stack) (scene : Scene) : List Move → List Answer
  | [] => []
  | .call work :: moves =>
    let (answer, scene) := (Session.cacheWork (.stacked stack) work).run Scene.answer scene
    answer :: scene.play stack moves
  | .pass nanos :: moves => { scene with now := scene.now + nanos }.play stack moves
  | .sweep n :: moves =>
    { scene with storage := scene.storage.sweep scene.now n }.play stack moves

def TtlMap.play (settings : Settings) (map : TtlMap) (now : Instant) : List Move → List Answer
  | [] => []
  | .call work :: moves =>
    let (answer, map) := map.call settings now work
    answer :: map.play settings now moves
  | .pass nanos :: moves => map.play settings (now + nanos) moves
  | .sweep _ :: moves => map.play settings now moves

/-- An answer is the expected one, or fails with the copy of the expected error that a flight
hands out. -/
def Simulation.Answer.Matches (answer expected : Answer) : Prop :=
  answer = expected ∨ ∃ e, expected = .failed e ∧ answer = .failed e.share

theorem matches_outcome {outcome expected : Outcome}
    (h : outcome = expected ∨ outcome = expected.mapError (·.share)) :
    (Answer.ofOutcome outcome).Matches (.ofOutcome expected) := by
  rcases h with rfl | rfl
  · exact .inl rfl
  · cases expected with
    | ok value => exact .inl rfl
    | error e => exact .inr ⟨e, rfl, rfl⟩

section
variable {stack : Stack} {scene : Scene} {map : TtlMap}

theorem does_closeEach (scene : Scene) (tiers : List Tier) :
    Does (Stack.closeEach tiers) scene () scene := by
  induction tiers with
  | nil => rfl
  | cons tier tiers ih => exact ih

theorem serves_work (hstack : stack.Usable) (h : Refines stack scene map)
    (hnow : scene.now < Instant.horizon) (hidle : Idle scene.guard) {work : Work}
    (hvalues : ∀ value ∈ work.values, value.length < 2 ^ 32) :
    ∃ answer, Serves stack (Session.cacheWork (.stacked stack) work) scene answer
        (map.call stack.settings scene.now work).2 ∧
      answer.Matches (map.call stack.settings scene.now work).1 := by
  cases work with
  | get key =>
    obtain ⟨scene', hget, hrest⟩ := (Stack.realizes_get hstack h hnow key).serves hidle
    exact ⟨_, ⟨scene', hget.bind rfl, hrest⟩, .inl rfl⟩
  | getValue key =>
    obtain ⟨scene', hget, hrest⟩ := (Stack.realizes_get hstack h hnow key).serves hidle
    simp only [TtlMap.call]
    cases hfind : map.find key scene.now with
    | hit value =>
      rw [hfind] at hget
      exact ⟨_, ⟨scene', (hget.bind rfl).map _, hrest⟩, .inl rfl⟩
    | _ =>
      rw [hfind] at hget
      exact ⟨_, ⟨scene', (hget.bind rfl).map _, hrest⟩, .inl rfl⟩
  | set key value ttl =>
    have hvalue := hvalues value List.mem_cons_self
    exact ⟨_, ((Stack.realizes_set hstack h key hvalue ttl).serves hidle).map _, .inl rfl⟩
  | delete key => exact ⟨_, ((Stack.realizes_delete h key).serves hidle).map _, .inl rfl⟩
  | mset items ttl =>
    have hitems : ∀ item ∈ items.rows, item.2.length < 2 ^ 32 :=
      fun item hitem => hvalues item.2 (List.mem_map_of_mem hitem)
    exact ⟨_, ((Stack.realizes_mset hstack h hitems ttl).serves hidle).map _, .inl rfl⟩
  | close =>
    have hclose : Does stack.close scene () scene := (does_closeEach scene stack.tiers).bind rfl
    exact ⟨.done, ⟨scene, hclose.bind rfl, rfl, hidle, h⟩, .inl rfl⟩
  | remember key loader options =>
    have hloaded : ∀ loaded, loader.single = .ok loaded → loaded.value.length < 2 ^ 32 :=
      fun loaded hsingle => hvalues loaded.value (by simp [Work.values, hsingle, Except.toOption])
    obtain ⟨outcome, hserves, hcopy⟩ :=
      Stack.serves_remember hstack h hnow hidle key hloaded options rfl
    exact ⟨_, hserves.map _, matches_outcome hcopy⟩
  | mget keys =>
    obtain ⟨scene', hget, hrest⟩ := (Stack.realizes_mget hstack h hnow keys).serves hidle
    exact ⟨_, ⟨scene', hget.bind rfl, hrest⟩, .inl rfl⟩
  | mremember keys loader options =>
    have httl : stack.resolveTtl (options.ttl.getD .zero) =
        (options.ttl.getD .zero).orElse stack.settings.defaultTtl := rfl
    have hloaded : ∀ loaded, loader.many = .ok loaded →
        ∀ row ∈ loaded.rows, row.2.value.length < 2 ^ 32 := by
      intro loaded hmany row hrow
      refine hvalues row.2.value ?_
      simp only [Work.values, hmany, Except.toOption, Option.map_some, Option.getD_some]
      exact List.mem_map_of_mem hrow
    obtain ⟨scene', hdoes, hrest⟩ :=
      (Stack.realizes_mremember hstack h hnow keys hloaded options httl).serves hidle
    simp only [TtlMap.call]
    split
    · rename_i hmap
      rw [hmap] at hdoes hrest
      exact ⟨_, ⟨scene', hdoes.bind rfl, hrest⟩, .inl rfl⟩
    · rename_i hmap
      rw [hmap] at hdoes hrest
      exact ⟨_, ⟨scene', hdoes.bind rfl, hrest⟩, .inl rfl⟩
  | _ => exact ⟨.nothing, ⟨scene, rfl, rfl, hidle, h⟩, .inl rfl⟩

theorem Shows.later {now later : Instant} {storage : Storage} (h : Shows stack now storage map)
    (hle : now ≤ later) : Shows stack later storage map :=
  fun tier ht key t hlt hlate => h tier ht key t (Nat.le_trans hle hlt) hlate

/-- From layers that show a map on, the answers to all calls are those of the map. -/
theorem play_matches (hstack : stack.Usable) (h : Refines stack scene map)
    (hidle : Idle scene.guard) {moves : List Move}
    (hvalues : ∀ work, .call work ∈ moves → ∀ value ∈ work.values, value.length < 2 ^ 32)
    (hclock : scene.now + elapsed moves < Instant.horizon) :
    List.Forall₂ Answer.Matches (scene.play stack moves)
      (map.play stack.settings scene.now moves) := by
  induction moves generalizing scene map with
  | nil => exact .nil
  | cons move moves ih =>
    have hrest : ∀ work, .call work ∈ moves → ∀ value ∈ work.values, value.length < 2 ^ 32 :=
      fun work hwork => hvalues work (List.mem_cons_of_mem _ hwork)
    cases move with
    | call work =>
      have hnow : scene.now < Instant.horizon := Nat.lt_of_le_of_lt (Nat.le_add_right ..) hclock
      obtain ⟨answer, ⟨scene', hdoes, hnow', hidle', h'⟩, hmatches⟩ :=
        serves_work hstack h hnow hidle (hvalues work List.mem_cons_self)
      unfold Scene.play TtlMap.play
      rw [hdoes]
      have hmatchesRest := ih h' hidle' hrest (hnow' ▸ hclock)
      rw [hnow'] at hmatchesRest
      exact .cons hmatches hmatchesRest
    | pass nanos =>
      have hlater : Refines stack { scene with now := scene.now + nanos } map :=
        ⟨h.shows.later (Nat.le_add_right ..), h.draws⟩
      exact ih hlater hidle hrest (Nat.add_assoc .. ▸ hclock)
    | sweep n =>
      have hswept : Refines stack { scene with storage := scene.storage.sweep scene.now n } map :=
        ⟨h.shows.kept (Storage.sweep_kept _ _ n), h.draws⟩
      exact ih hswept hidle hrest hclock

/-- A cache over any layers that are empty at the beginning answers every run of calls as one
map with deadlines does, if all values are short enough for the header of an array. -/
theorem layers_refine_map {config : CacheConfig} {layers : List (String × Bool)} {stack : Stack}
    {scene : Scene} (hbuild : Stack.build config layers = .ok stack)
    (hdefault : config.defaultTtlMs ≠ 0)
    (hempty : ∀ tier ∈ stack.tiers, scene.storage.items tier.slot = {})
    (hidle : Idle scene.guard) {moves : List Move}
    (hvalues : ∀ work, .call work ∈ moves → ∀ value ∈ work.values, value.length < 2 ^ 32)
    (hclock : scene.now + elapsed moves < Instant.horizon) :
    List.Forall₂ Answer.Matches (scene.play stack moves)
      (TtlMap.play config.settings { draws := scene.draws } scene.now moves) := by
  obtain ⟨hstack, hsettings⟩ := Stack.build_usable hbuild hdefault
  rw [← hsettings]
  refine play_matches hstack ⟨fun tier ht key t _ _ => ?_, rfl⟩ hidle hvalues hclock
  rw [hempty tier ht]
  rfl

end

def memoryOverStore : Scene where
  now := 10 ^ 12
  storage :=
    { backing := fun slot => if slot = 0 then .memory 0 else .network ⟨"remote", none⟩ 0
      memories := fun _ => { limit := 1 }
      stores := fun _ => { batched := true, rules := [] } }
  draws := fun _ => 0

def expiringMoves : List Move :=
  [.call (.set "a" [1] (.ofSeconds 2)), .call (.get "a"), .pass (2 * 10 ^ 9), .sweep 0,
    .call (.get "a"), .call (.remember "b" { key := "b" } {}), .call (.get "b")]

theorem build_unspread :
    Stack.build { jitter := ⟨0⟩ } [("memory", true), ("remote", true)] =
      .ok ⟨CacheConfig.settings { jitter := ⟨0⟩ }, [⟨0, "memory", true⟩, ⟨1, "remote", true⟩]⟩ := by
  have hunit : (⟨0⟩ : Binary64).inUnitInterval = true := by decide +kernel
  simp [Stack.build, hunit]

theorem memoryOverStore_items (slot : Nat) : memoryOverStore.storage.items slot = {} := by
  unfold Storage.items memoryOverStore
  split <;> rfl

theorem layers_refine_map_expiry :
    ∃ stack, Stack.build { jitter := ⟨0⟩ } [("memory", true), ("remote", true)] = .ok stack ∧
      List.Forall₂ Answer.Matches (memoryOverStore.play stack expiringMoves)
        [.done, .lookup (.hit [1]), .lookup .miss, .failed .notFound, .lookup .negative] := by
  have hspread : Jitter.spread? ⟨0⟩ = none := by decide +kernel
  have hclock : memoryOverStore.now + elapsed expiringMoves < Instant.horizon := by decide
  have hvalues : ∀ work, .call work ∈ expiringMoves → ∀ value ∈ work.values, value.length < 2 ^ 32 := by
    simp [expiringMoves, Work.values, Except.toOption]
  have hplay := layers_refine_map build_unspread (by decide)
    (fun tier _ => memoryOverStore_items tier.slot) idle_new hvalues hclock
  have hmap : TtlMap.play (CacheConfig.settings { jitter := ⟨0⟩ }) ⟨fun _ => none, memoryOverStore.draws⟩
      memoryOverStore.now expiringMoves =
      [.done, .lookup (.hit [1]), .lookup .miss, .failed .notFound, .lookup .negative] := by
    simp [TtlMap.play, expiringMoves, TtlMap.call, TtlMap.find, TtlMap.record?, TtlMap.write,
      Settings.spread, CacheConfig.settings, hspread, TtlMap.remember, TtlMap.load,
      memoryOverStore, Duration.orElse, Duration.isZero, Duration.ofSeconds, Option.filter,
      Lookup.ofRecord, Record.value, CacheError.isNotFound, Answer.ofOutcome, CacheConfig.negativeTtl,
      Duration.ofMillis]
  rw [hmap] at hplay
  exact ⟨_, build_unspread, hplay⟩

-- ---------------------------------------------------------------------------
-- Values too long for a record
-- ---------------------------------------------------------------------------

def writtenAndRead (value : Bytes) : List Move :=
  [.call (.set "a" value (.ofSeconds 60)), .call (.get "a")]

theorem play_long {stack : Stack} {scene : Scene} (hnow : scene.now < Instant.horizon) {value : Bytes}
    (hlong : 2 ^ 32 ≤ value.length) :
    scene.play stack (writtenAndRead value) = [.done, .lookup .miss] := by
  obtain ⟨mid, after, hset, hget⟩ := stack.does_set_long hnow hlong "a" (.ofSeconds 60)
  have hwritten : (Session.cacheWork (.stacked stack) (.set "a" value (.ofSeconds 60))).run
      Scene.answer scene = (.done, mid) := Does.map hset Answer.ofUnit
  have hread : (Session.cacheWork (.stacked stack) (.get "a")).run Scene.answer mid =
      (.lookup .miss, after) := Does.bind hget rfl
  simp only [writtenAndRead, Scene.play, hwritten, hread]

/-- A value of 2³² bytes is lost at once, where one map would have it for a minute. -/
theorem long_value_lost :
    ∃ stack, Stack.build { jitter := ⟨0⟩ } [("memory", true), ("remote", true)] = .ok stack ∧
      (∀ tier ∈ stack.tiers, memoryOverStore.storage.items tier.slot = {}) ∧
      Idle memoryOverStore.guard ∧
      ¬List.Forall₂ Answer.Matches
        (memoryOverStore.play stack (writtenAndRead (List.replicate (2 ^ 32) 0)))
        (TtlMap.play (CacheConfig.settings { jitter := ⟨0⟩ }) { draws := memoryOverStore.draws }
          memoryOverStore.now (writtenAndRead (List.replicate (2 ^ 32) 0))) := by
  have hlong : 2 ^ 32 ≤ (List.replicate (2 ^ 32) (0 : UInt8)).length :=
    Nat.le_of_eq List.length_replicate.symm
  generalize List.replicate (2 ^ 32) (0 : UInt8) = value at hlong ⊢
  have hspread : Jitter.spread? ⟨0⟩ = none := by decide +kernel
  have hmap : TtlMap.play (CacheConfig.settings { jitter := ⟨0⟩ }) { draws := memoryOverStore.draws }
      memoryOverStore.now (writtenAndRead value) = [.done, .lookup (.hit value)] := by
    simp [TtlMap.play, writtenAndRead, TtlMap.call, TtlMap.find, TtlMap.record?, TtlMap.write,
      Settings.spread, CacheConfig.settings, hspread, memoryOverStore, Duration.orElse,
      Duration.isZero, Duration.ofSeconds, Option.filter, Lookup.ofRecord, Record.value]
  refine ⟨_, build_unspread, fun tier _ => memoryOverStore_items tier.slot, idle_new, fun hmatches => ?_⟩
  rw [play_long (by decide) hlong, hmap] at hmatches
  cases hmatches with
  | cons _ hrest =>
    cases hrest with
    | cons hmiss _ =>
      rcases hmiss with hsame | ⟨e, hfailed, -⟩
      · cases hsame
      · cases hfailed

end StackedCache
