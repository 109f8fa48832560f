import StackedCache.Proofs.CallTraces
import StackedCache.Proofs.Sequential

/-!
# What a run leaves in the layers

Over layers that do not fail a run leaves what its trace says: to what was shown
under a key the changes under the key are made. As long as there are none, the
layers tell of the key what they have shown at first.
-/

namespace StackedCache

open Simulation CacheProc

-- ---------------------------------------------------------------------------
-- Calls on layers
-- ---------------------------------------------------------------------------

def Change.show (change : Change) (shown : Option Bytes) : Option Bytes :=
  change.apply (fun payload _ => payload) shown

namespace Storage

theorem itemAt_isLive (home : Nat ⊕ Nat) (now : Instant) (payload : Bytes) (ttl : Duration) :
    (itemAt home now payload ttl).isLive now = true := by
  cases home with
  | inl n => exact Memory.item_isLive now payload ttl
  | inr n =>
    unfold itemAt Item.lasting Item.isLive Item.isExpired
    cases hzero : ttl.isZero with
    | true => simp
    | false =>
      have hpos : 0 < ttl.nanos := Nat.pos_of_ne_zero fun h => by simp [Duration.isZero, h] at hzero
      have hlater : ¬now + ttl.nanos ≤ now := Nat.not_le_of_lt (Nat.lt_add_of_pos_right hpos)
      simp [hlater]

theorem itemAt_payload (home : Nat ⊕ Nat) (now : Instant) (payload : Bytes) (ttl : Duration) :
    (itemAt home now payload ttl).payload = payload := by
  cases home <;> rfl

theorem visible_of_changed {now : Instant} {home : Nat ⊕ Nat} {key : String} {change : Change}
    {before after : Table Item} (h : Changed now (itemAt home now) key change before after) :
    after.visible? key now = change.show (before.visible? key now) := by
  unfold Table.visible? Change.show
  rw [h now (Nat.le_refl _)]
  cases change with
  | kept => exact congrArg _ (liveItem_live before key now)
  | removed => rfl
  | put payload ttl => simp [Change.apply, Option.filter, itemAt_isLive, itemAt_payload]

/-- A call changes what is shown in its slot, and in each one that has its items at the same home. -/
theorem perform_visible (storage : Storage) (now : Instant) (slot slot' : Nat) (op : LayerOp)
    (key : String) :
    ((storage.perform now slot op).2.items slot').visible? key now =
      if storage.home slot = storage.home slot' then
        (op.change key).show ((storage.items slot').visible? key now)
      else (storage.items slot').visible? key now := by
  have hhome : (storage.perform now slot op).2.home slot' = storage.home slot' := by
    unfold home
    rw [perform_backing]
  rw [items_eq, hhome, items_eq,
    visible_of_changed (storage.perform_changed now slot op (storage.home slot') key)]
  split <;> rfl

end Storage

-- ---------------------------------------------------------------------------
-- Scenes
-- ---------------------------------------------------------------------------

namespace Scene

def shown (scene : Scene) (slot : Nat) (key : String) : Option Bytes :=
  (scene.storage.items slot).visible? key scene.now

def shownAfter (home : Nat → Nat ⊕ Nat) (slot : Nat) (changes : List (Nat × Change))
    (shown : Option Bytes) : Option Bytes :=
  changes.foldl
    (fun shown change => if home change.1 = home slot then change.2.show shown else shown) shown

section
variable {α : Type} {scene : Scene} {slot : Nat} {key : String} {payload : Bytes}

theorem shownAfter_puts (home : Nat → Nat ⊕ Nat) {tiers : List Tier} (ttl : Duration)
    {before : Option Bytes}
    (h : before = some payload ∨ ∃ tier ∈ tiers, tier.slot = slot) :
    shownAfter home slot (tiers.map fun tier => (tier.slot, .put payload ttl)) before =
      some payload := by
  induction tiers generalizing before with
  | nil => exact h.resolve_right (by simp)
  | cons tier tiers ih =>
    refine ih ?_
    by_cases hhome : home tier.slot = home slot
    · exact .inl (if_pos hhome)
    · rcases h with rfl | ⟨tier', htier, rfl⟩
      · exact .inl (if_neg hhome)
      · refine .inr ⟨tier', ?_, rfl⟩
        exact (List.mem_cons.mp htier).resolve_left fun heq => hhome (heq ▸ rfl)

theorem answer_home (r : CacheRequest ScriptedLoader) (scene : Scene) :
    (answer r scene).2.storage.home = scene.storage.home := by
  cases r with
  | layer slot op => exact congrArg (fun backing slot => (backing slot).home) (Storage.perform_backing ..)
  | turn seat =>
    simp only [answer]
    split <;> rfl
  | _ => rfl

theorem answer_shown (r : CacheRequest ScriptedLoader) (scene : Scene) (slot : Nat) (key : String) :
    (answer r scene).2.shown slot key =
      shownAfter scene.storage.home slot (r.changes key) (scene.shown slot key) := by
  cases r with
  | layer slot' op =>
    refine (Storage.perform_visible ..).trans ?_
    by_cases hkept : op.change key = .kept
    · simp only [CacheRequest.changes, hkept, ↓reduceIte]
      exact ite_self _
    · simp only [CacheRequest.changes, if_neg hkept]
      rfl
  | turn seat =>
    simp only [answer]
    split <;> rfl
  | _ => rfl

theorem answer_fetches {r : CacheRequest ScriptedLoader} {reply : r.Reply} {found : Option Bytes}
    (hnow : scene.now < Instant.horizon) (hreply : (answer r scene).1 = reply)
    (h : Fetches ⟨r, reply⟩ slot key found) : scene.shown slot key = found := by
  cases h with
  | get =>
    obtain ⟨⟨truth, htruth, hshown⟩, -⟩ := Storage.get_spec scene.storage scene.now slot key
    cases htruth.symm.trans hreply
    exact hshown.symm
  | mget hkey =>
    obtain ⟨⟨truth, htruth, hshown⟩, -⟩ := Storage.mget_spec scene.storage scene.now hnow slot _
    cases htruth.symm.trans hreply
    exact ((hshown key).trans (if_pos hkey)).symm

-- ---------------------------------------------------------------------------
-- Runs
-- ---------------------------------------------------------------------------

variable (p : CacheProc ScriptedLoader α)

theorem run_shown (scene : Scene) (slot : Nat) (key : String) :
    (p.run answer scene).2.shown slot key =
      shownAfter scene.storage.home slot (changesOf key (p.told answer scene)) (scene.shown slot key) := by
  induction p generalizing scene with
  | done a => rfl
  | ask r next ih =>
    refine (ih _ _).trans ?_
    rw [answer_home, answer_shown]
    exact (List.foldl_append ..).symm

theorem told_fetches {scene : Scene} (hnow : scene.now < Instant.horizon)
    (hkept : changesOf key (p.told answer scene) = []) {e : CacheExchange} (he : e ∈ p.told answer scene)
    {found : Option Bytes} (hfetches : Fetches e slot key found) : scene.shown slot key = found := by
  induction p generalizing scene with
  | done a => cases he
  | ask r next ih =>
    obtain ⟨hfirst, hrest⟩ := List.append_eq_nil_iff.mp hkept
    rcases List.mem_cons.mp he with rfl | he
    · exact answer_fetches hnow rfl hfetches
    · have hsame : (answer r scene).2.shown slot key = scene.shown slot key :=
        (answer_shown r scene slot key).trans (congrArg (shownAfter _ slot · _) hfirst)
      exact hsame.symm.trans (ih _ (answer_now r scene ▸ hnow) hrest he)

/-- What a run leaves behind it, as far as its trace tells. -/
structure Leaves (scene : Scene) (told : List CacheExchange) (scene' : Scene) : Prop where
  now : scene'.now = scene.now
  shown (slot : Nat) (key : String) : scene'.shown slot key =
    shownAfter scene.storage.home slot (changesOf key told) (scene.shown slot key)
  fetched {slot : Nat} {key : String} {found : Option Bytes} {e : CacheExchange}
    (hkept : changesOf key told = []) (he : e ∈ told) (hfetches : Fetches e slot key found) :
    scene.shown slot key = found

theorem leaves_run {p : CacheProc ScriptedLoader α} {a : α} {scene scene' : Scene}
    (hnow : scene.now < Instant.horizon) (h : Does p scene a scene') :
    p.Ends (p.told answer scene) a ∧ scene.Leaves (p.told answer scene) scene' := by
  have hends := Proc.ends_told answer p scene
  have hleaves : scene.Leaves (p.told answer scene) (p.run answer scene).2 :=
    ⟨run_now p scene, run_shown p scene, fun hkept he => told_fetches p hnow hkept he⟩
  rw [h] at hends hleaves
  exact ⟨hends, hleaves⟩

end

end Scene

end StackedCache
