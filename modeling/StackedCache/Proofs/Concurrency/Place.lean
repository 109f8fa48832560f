import StackedCache.Proofs.Storage
import StackedCache.Proofs.Concurrency.Stages
import StackedCache.Proofs.Concurrency.System

/-!
# Layers shared by tasks

The layers of a cache as the surroundings of its tasks: each call on a layer is
answered at once and truthfully, while loaders and random draws answer
anything. Between two steps time may pass, and memory layers may be swept.
-/

namespace StackedCache.Concurrency

open Storage

variable {Loader : Type}

structure Place where
  now : Instant
  storage : Storage

namespace Place

def answers (place : Place) : (r : CacheRequest Loader) → r.Reply → Place → Prop
  | .layer slot op, reply, after =>
    reply = (place.storage.perform place.now slot op).1 ∧
      after = { place with storage := (place.storage.perform place.now slot op).2 }
  | _, _, after => after = place

def drifts (place after : Place) : Prop :=
  place.now ≤ after.now ∧ after.now < Instant.horizon ∧ after.storage = place.storage ∨
  ∃ n, after = { place with storage := place.storage.sweep place.now n }

def shown (place : Place) (slot : Nat) (key : String) : Option Bytes :=
  (place.storage.items slot).visible? key place.now

/-- The layers have under a key what they should have at a stage. -/
structure At (stack : Stack) (key : String) (stage : Stage) (place : Place) : Prop where
  clock : place.now < Instant.horizon
  seen {tier : Tier} : tier ∈ stack.tiers → Seen stack stage tier.slot (place.shown tier.slot key)

variable {stack : Stack} {key : String} {stage stage' : Stage} {stance : Stance} {caller : Prop}
  {place after : Place}

theorem At.later (h : place.At stack key stage) (hle : stage ≤ stage')
    (hsettled : ∀ finding, stage' ≠ .settled finding) : place.At stack key stage' :=
  ⟨h.clock, fun ht => ⟨fun hp => ((h.seen ht).only hp).later hle,
    fun hs => absurd hs (hsettled _)⟩⟩

/-- In each slot the same is seen as before, or what was loaded. -/
theorem At.changed (h : place.At stack key stage) (hnow : after.now = place.now)
    (hchange : ∀ slot, after.shown slot key = place.shown slot key ∨
      ∃ payload, stage.Holds payload ∧ after.shown slot key = some payload) :
    after.At stack key stage := by
  refine ⟨hnow ▸ h.clock, fun {tier} ht => ?_⟩
  rcases hchange tier.slot with hsame | ⟨payload, hholds, hnew⟩
  · rw [hsame]
    exact h.seen ht
  · rw [hnew]
    refine ⟨fun hp => Option.some.inj hp ▸ hholds, fun hs _ => ?_⟩
    obtain ⟨finding, hfinding, -, rfl⟩ := hholds
    rw [hs] at hfinding
    cases hfinding
    rfl

theorem At.settle (h : place.At stack key stage) {slot : Nat} (hslot : stack.lowest? = some slot)
    {payload : Bytes} (hholds : stage.Holds payload) (hnew : place.shown slot key = some payload) :
    place.At stack key stage.settle := by
  refine ⟨h.clock, fun {tier} ht => ⟨fun hp => ((h.seen ht).only hp).later stage.le_settle, ?_⟩⟩
  intro finding hs hlast
  obtain ⟨finding', hfinding, -, rfl⟩ := hholds
  rw [Stage.settle_of_finding hfinding] at hs
  cases hs
  rw [hslot] at hlast
  cases hlast
  exact hnew

theorem shown_of_sees {slot : Nat} {shown : Instant → Option Bytes}
    (hclock : place.now < Instant.horizon) (hnow : after.now = place.now)
    (h : after.storage.Sees place.now slot key shown) : after.shown slot key = shown place.now := by
  unfold Place.shown
  rw [hnow]
  exact h place.now (Nat.le_refl _) hclock

theorem At.kept (h : place.At stack key stage) (hnow : after.now = place.now)
    (hkept : Kept place.now place.storage after.storage) : after.At stack key stage :=
  h.changed hnow fun slot => .inl (shown_of_sees h.clock hnow (hkept slot key))

/-- While time passes what is seen may only vanish. -/
theorem At.drift (h : place.At stack key stage) (hd : place.drifts after)
    (hlast : ∀ slot, stack.lowest? = some slot → (place.shown slot key).isSome →
      (after.shown slot key).isSome) : after.At stack key stage := by
  rcases hd with ⟨hle, hclock, hsame⟩ | ⟨n, rfl⟩
  · have hearlier {slot : Nat} {payload : Bytes} (hp : after.shown slot key = some payload) :
        place.shown slot key = some payload := by
      unfold shown at hp ⊢
      rw [hsame] at hp
      exact visible_earlier hp hle
    refine ⟨hclock, fun {tier} ht => ⟨fun hp => (h.seen ht).only (hearlier hp), fun hs hslot => ?_⟩⟩
    have hbefore := (h.seen ht).settled hs hslot
    obtain ⟨payload, hp⟩ := Option.isSome_iff_exists.mp (hlast _ hslot (by simp [hbefore]))
    rw [hearlier hp] at hbefore
    exact hp.trans hbefore
  · exact h.kept rfl (sweep_kept _ _ n)

/-- A call on a layer, as the discipline allows it, is answered as the discipline wants, and
only who leads the key's flight brings the key forward. -/
theorem At.layer (h : place.At stack key stage) {slot : Nat} {op : LayerOp} {reply : op.Reply}
    (hp : (minding stack key caller : Discipline (CacheCalls Loader) Outlook).permits
      ⟨stage, stance⟩ (.layer slot op))
    (ha : place.answers (.layer slot op : CacheRequest Loader) reply after) :
    ∃ stage', (minding stack key caller : Discipline (CacheCalls Loader) Outlook).admits
        ⟨stage, stance⟩ (.layer slot op) reply ⟨stage', stance⟩ ∧
      after.At stack key stage' ∧ (stage' = stage ∨
        stage' = stage.settle ∧ Outlook.Leads ⟨stage, stance⟩ key) := by
  obtain ⟨rfl, hafter⟩ := ha
  have hnow : after.now = place.now := hafter ▸ rfl
  have hstorage : after.storage = (place.storage.perform place.now slot op).2 := hafter ▸ rfl
  have hsees {slot : Nat} {shown : Instant → Option Bytes}
      (hs : after.storage.Sees place.now slot key shown) : after.shown slot key = shown place.now :=
    shown_of_sees h.clock hnow hs
  cases op with
  | get key' =>
    obtain ⟨⟨found, hreply, hfound⟩, hkept⟩ := get_spec place.storage place.now slot key'
    rw [← hstorage] at hkept
    refine ⟨stage, ⟨.refl key _, found, hreply, ?_⟩, h.kept hnow hkept, .inl rfl⟩
    rintro rfl ⟨tier, ht, rfl⟩
    rw [hfound]
    exact h.seen ht
  | mget keys =>
    obtain ⟨⟨batch, hreply, hbatch⟩, hkept⟩ := mget_spec place.storage place.now h.clock slot keys
    rw [← hstorage] at hkept
    refine ⟨stage, ⟨.refl key _, batch, hreply, ?_⟩, h.kept hnow hkept, .inl rfl⟩
    rintro ⟨tier, ht, rfl⟩ payload hget
    rw [hbatch] at hget
    split at hget
    · exact (h.seen ht).only hget
    · cases hget
  | delete key' =>
    obtain ⟨hreply, -, hkept⟩ := delete_spec place.storage place.now slot key'
    rw [← hstorage] at hkept
    refine ⟨stage, ⟨hreply, .refl key _⟩, h.changed hnow fun slot' => ?_, .inl rfl⟩
    rcases hkept slot' key with hsame | ⟨hkey, -⟩
    · exact .inl (hsees hsame)
    · exact absurd hkey.symm hp.2
  | set key' payload ttl =>
    obtain ⟨hreply, hwritten, hkept⟩ := set_spec place.storage place.now slot key' payload ttl
    rw [← hstorage] at hkept hwritten
    have hafter : after.At stack key stage := by
      refine h.changed hnow fun slot' => ?_
      rcases hkept slot' key with hsame | ⟨rfl, hnew⟩
      · exact .inl (hsees hsame)
      · exact .inr ⟨payload, hp.2 rfl, (hsees hnew).trans (shownFor_now ..)⟩
    by_cases hset : Outlook.Leads ⟨stage, stance⟩ key ∧ key' = key ∧ stack.lowest? = some slot
    · refine ⟨stage.settle, ⟨hreply, fun _ _ _ => ⟨rfl, rfl⟩, fun hnot => absurd hset hnot⟩, ?_,
        .inr ⟨rfl, hset.1⟩⟩
      obtain ⟨-, rfl, hslot⟩ := hset
      exact hafter.settle hslot (hp.2 rfl) ((hsees hwritten).trans (shownFor_now ..))
    · exact ⟨stage, ⟨hreply, fun hl hk hslot => absurd ⟨hl, hk, hslot⟩ hset, fun _ => .refl key _⟩,
        hafter, .inl rfl⟩
  | mset items ttl =>
    obtain ⟨hreply, hkept⟩ := mset_spec place.storage place.now slot items ttl
    rw [← hstorage] at hkept
    refine ⟨stage, ⟨hreply, .refl key _⟩, h.changed hnow fun slot' => ?_, .inl rfl⟩
    rcases hkept slot' key with hsame | ⟨payload, hmem, hnew⟩
    · exact .inl (hsees hsame)
    · exact .inr ⟨payload, hp.2.2 payload hmem, (hsees hnew).trans (shownFor_now ..)⟩

end Place

abbrev inPlace (Loader : Type) : Surroundings Loader where
  State := Place
  answers := Place.answers
  drifts := Place.drifts

end StackedCache.Concurrency
