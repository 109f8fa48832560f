import StackedCache.Proofs.BatchLoads
import StackedCache.Proofs.BatchLookups

/-!
# Single and batch lookups

Both look for a value from the closest layer down. A single lookup ends at a
negative record, and a batch lookup goes on below it. So they can differ only on
a key that is marked above a layer that has a value for it.
-/

namespace StackedCache

open Simulation

-- ---------------------------------------------------------------------------
-- Layers that do not fail
-- ---------------------------------------------------------------------------

theorem Outages.answer_spared : ({} : Outages).answer = Scene.answer := by
  funext r scene
  cases r with
  | layer slot op =>
    cases op with
    | get key =>
      simp only [answer, error?, retold, Scene.answer]
      cases (scene.storage.perform scene.now slot (.get key)).1 with
      | error e => rfl
      | ok found => cases found <;> rfl
    | _ => rfl
  | _ => rfl

theorem Faults.answer_spared : ({} : Faults).answer = Scene.answer := by
  rw [← Outages.answer_spared]
  funext r scene
  cases r with
  | layer slot op => cases op <;> rfl
  | _ => rfl

section
variable {α : Type} {p : CacheProc ScriptedLoader α} {scene after : Scene} {a : α}

theorem GoesAmid.does {calls : List (Nat × LayerOp)} (h : GoesAmid {} p scene calls a after) :
    Does p scene a after := by
  have hrun := h.run
  rwa [Outages.answer_spared] at hrun

theorem Consults.does {queries : List (Nat × LayerOp)} (h : Consults {} p scene queries a after) :
    Does p scene a after := by
  have hrun := h.run
  rwa [Faults.answer_spared] at hrun

end

namespace Stack

-- ---------------------------------------------------------------------------
-- Keys of a batch
-- ---------------------------------------------------------------------------

section
variable {stack : Stack} {scene : Scene} {keys : List String} {key : String} {batch : BatchGet}

theorem Sorts.hit {upper : List Nat} {payload value : Bytes} (h : stack.Sorts scene keys batch)
    (hkey : key ∈ keys) (horigin : scene.Origin (stack.fullKey key) stack.slots upper payload value) :
    batch.hits.get? key = some value ∧ key ∉ batch.missing := by
  have hhit := (h.hits key value).mpr ⟨hkey, upper, payload, horigin⟩
  refine ⟨hhit, fun hmem => ?_⟩
  rw [h.missing, List.mem_filter, hhit] at hmem
  simp at hmem

theorem Sorts.missed (h : stack.Sorts scene keys batch) (hkey : key ∈ keys)
    (hnone : ∀ slot ∈ stack.slots, scene.value? slot (stack.fullKey key) = none) :
    batch.hits.get? key = none ∧ key ∈ batch.missing := by
  have hmiss : batch.hits.get? key = none := by
    refine Option.eq_none_iff_forall_ne_some.mpr fun value hvalue => ?_
    obtain ⟨-, upper, payload, slot, lower, hslots, -, hfound⟩ := (h.hits key value).mp hvalue
    have hmem : slot ∈ stack.slots := hslots ▸ List.mem_append_right _ List.mem_cons_self
    cases (hnone slot hmem).symm.trans hfound
  exact ⟨hmiss, h.missing ▸ List.mem_filter.mpr ⟨hkey, hmiss ▸ rfl⟩⟩

end

theorem value?_reading (scene : Scene) (key : String) (tier : Tier) :
    scene.value? tier.slot key = (scene.reading {} key tier).value? := rfl

theorem value?_of_nothing {scene : Scene} {key : String} {tiers : List Tier}
    (h : ∀ tier ∈ tiers, scene.reading {} key tier = .nothing) :
    ∀ slot ∈ tiers.map Tier.slot, scene.value? slot key = none := by
  refine List.forall_mem_map.mpr fun tier htier => ?_
  rw [value?_reading, h tier htier]
  rfl

end Stack

/-- As long as no layer fails, a batch lookup has a value for a key that a single lookup finds, the
same one, and misses a key that a single lookup misses. A key that a single lookup finds to be marked is
missing too if no layer has a value for it. Otherwise the batch lookup has the value of the first layer
with one. -/
theorem mget_agrees_with_get (stack : Stack) (scene : Scene) (keys : List String) :
    ∃ batch after, Does (stack.mget keys) scene (.ok batch) after ∧
      ∀ key ∈ keys, key ≠ "" → ∃ found after', Does (stack.get key) scene (.ok found) after' ∧
        match found with
        | .hit value => batch.hits.get? key = some value ∧ key ∉ batch.missing
        | .miss => batch.hits.get? key = none ∧ key ∈ batch.missing
        | .negative =>
          ((∀ slot ∈ stack.slots, scene.value? slot (stack.fullKey key) = none) →
            batch.hits.get? key = none ∧ key ∈ batch.missing) ∧
          ∀ upper payload value, scene.Origin (stack.fullKey key) stack.slots upper payload value →
            batch.hits.get? key = some value ∧ key ∉ batch.missing := by
  have hspared (calls : List (Nat × LayerOp)) : ({} : Faults).first? calls = none :=
    List.findSome?_eq_none_iff.mpr fun _ _ => rfl
  obtain ⟨hits, after, hmget, hpassed⟩ := Stack.consults_answered stack scene keys (hspared _)
  have hsorts := Stack.sorts_of_passed hpassed
  refine ⟨_, after, hmget.does, fun key hkey hne => ?_⟩
  have hasked := TtlMap.mem_asked.mpr ⟨hkey, hne⟩
  obtain ⟨reads, found, payload, upper, after', hdecides, hget, -⟩ := goes_get stack {} scene key
  cases hdecides with
  | miss hnothing =>
    exact ⟨_, after', hget.does, hsorts.missed hasked (Stack.value?_of_nothing hnothing)⟩
  | @failed _ _ tier _ _ _ hfailed =>
    unfold Scene.reading at hfailed
    simp only at hfailed
    cases hshown : scene.shown tier.slot (stack.fullKey key) with
    | none => simp [hshown, Reading.ofReply] at hfailed
    | some payload =>
      simp only [hshown, Reading.ofReply] at hfailed
      split at hfailed <;> cases hfailed
  | negative =>
    exact ⟨_, after', hget.does, hsorts.missed hasked, fun _ _ _ => hsorts.hit hasked⟩
  | @value _ below tier _ value htiers hupper hvalue =>
    have horigin : scene.Origin (stack.fullKey key) stack.slots (upper.map Tier.slot) payload value := by
      refine ⟨tier.slot, below.map Tier.slot, ?_, Stack.value?_of_nothing hupper, ?_⟩
      · simp [Stack.slots, htiers]
      · rw [Stack.value?_reading, hvalue]
        rfl
    exact ⟨_, after', hget.does, hsorts.hit hasked horigin⟩

theorem mget_agrees_with_get_hiding :
    ∃ batch after, Does (hidingStack.mget ["c", "b"]) hidingLayers (.ok batch) after ∧
      batch.hits.get? "b" = some [2] ∧ "c" ∈ batch.missing := by
  obtain ⟨batch, after, hmget, hagrees⟩ := mget_agrees_with_get hidingStack hidingLayers ["c", "b"]
  obtain ⟨found, _, hb, hhit⟩ := hagrees "b" (by decide) (by decide)
  obtain ⟨found', _, hc, hmissing⟩ := hagrees "c" (by decide) (by decide)
  have hfound : Does (hidingStack.get "b") hidingLayers (.ok (.hit [2])) _ := does_ok (by decide +kernel)
  have hfound' : Does (hidingStack.get "c") hidingLayers (.ok .negative) _ := does_ok (by decide +kernel)
  cases (hb.symm.trans hfound)
  cases (hc.symm.trans hfound')
  exact ⟨batch, after, hmget, hhit.1, (hmissing.1 (by decide +kernel)).2⟩

/-- The mark above a value ends the single lookup only. -/
theorem mget_finds_hidden :
    ∃ batch after after', Does (hidingStack.get "a") hidingLayers (.ok .negative) after ∧
      Does (hidingStack.mget ["a"]) hidingLayers (.ok batch) after' ∧
      batch.hits.get? "a" = some [1] ∧ batch.missing = [] :=
  ⟨⟨Table.ofList [("a", [1])], []⟩, _, _, does_ok (by decide +kernel), does_ok (by decide +kernel),
    by decide +kernel, rfl⟩

end StackedCache
