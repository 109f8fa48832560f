import StackedCache.Proofs.Sequential
import StackedCache.Proofs.WorkTraces

/-!
# Caches that share a store

Two caches with prefixes of which neither begins the other do not notice each
other, even if all their layers are the same: each names only keys that begin
with its own prefix, and what a call tells and leaves depends on the live items
under the keys that it names.
-/

namespace StackedCache

open Simulation Concurrency

/-- The key begins with the prefix. -/
def Begins (start key : String) : Prop := start.toList <+: key.toList

structure Tenant where
  backing : Nat → Backing
  guard : Flights := {}
  draws : Nat → Rat

structure House where
  now : Instant
  memories : Nat → Memory
  stores : Nat → ScriptedStore
  first : Tenant
  second : Tenant

inductive JointMove where
  | first (work : Work)
  | second (work : Work)
  | pass (nanos : Nat)
  | sweep (memory : Nat)

def JointMove.isSecond : JointMove → Bool
  | .second _ => true
  | _ => false

namespace House

def scene (house : House) (tenant : Tenant) : Scene where
  now := house.now
  storage := ⟨tenant.backing, house.memories, house.stores⟩
  guard := tenant.guard
  draws := tenant.draws

def afterFirst (house : House) (scene : Scene) : House :=
  { house with
    memories := scene.storage.memories
    stores := scene.storage.stores
    first := { house.first with guard := scene.guard, draws := scene.draws } }

def afterSecond (house : House) (scene : Scene) : House :=
  { house with
    memories := scene.storage.memories
    stores := scene.storage.stores
    second := { house.second with guard := scene.guard, draws := scene.draws } }

def sweep (house : House) (n : Nat) : House :=
  { house with
    memories := Function.update house.memories n ((house.memories n).sweep house.now).2 }

/-- The answers of the first cache to its calls among some moves, and the house afterwards. -/
def play (first second : Stack) (house : House) : List JointMove → List Answer × House
  | [] => ([], house)
  | .first work :: moves =>
    let (answer, scene) :=
      (Session.cacheWork (.stacked first) work).run Scene.answer (house.scene house.first)
    let (answers, house) := (house.afterFirst scene).play first second moves
    (answer :: answers, house)
  | .second work :: moves =>
    let (_, scene) :=
      (Session.cacheWork (.stacked second) work).run Scene.answer (house.scene house.second)
    (house.afterSecond scene).play first second moves
  | .pass nanos :: moves => { house with now := house.now + nanos }.play first second moves
  | .sweep n :: moves => (house.sweep n).play first second moves

end House

-- ---------------------------------------------------------------------------
-- Runs
-- ---------------------------------------------------------------------------

namespace Proc

variable {S : Signature} {α σ : Type} {answer : (r : S.Request) → σ → S.Reply r × σ}
  {permitted : S.Request → Prop} {p : Proc S α} {s s' : σ}

/-- Related states answer a program alike, if they do so for each of its requests. -/
theorem run_alike {R : σ → σ → Prop}
    (hstep : ∀ r s s', permitted r → R s s' →
      (answer r s).1 = (answer r s').1 ∧ R (answer r s).2 (answer r s').2)
    (hp : ∀ e ∈ p.told answer s, permitted e.1) (h : R s s') :
    (p.run answer s).1 = (p.run answer s').1 ∧ R (p.run answer s).2 (p.run answer s').2 := by
  induction p generalizing s s' with
  | done a => exact ⟨rfl, h⟩
  | ask r next ih =>
    obtain ⟨hr, hrest⟩ := List.forall_mem_cons.mp hp
    obtain ⟨hreply, hafter⟩ := hstep r s s' hr h
    have hgo := ih _ hrest hafter
    unfold run
    rwa [← hreply]

theorem run_preserves {I : σ → Prop} (hstep : ∀ r s, permitted r → I s → I (answer r s).2)
    (hp : ∀ e ∈ p.told answer s, permitted e.1) (h : I s) : I (p.run answer s).2 := by
  induction p generalizing s with
  | done a => exact h
  | ask r next ih =>
    obtain ⟨hr, hrest⟩ := List.forall_mem_cons.mp hp
    exact ih _ hrest (hstep r s hr h)

end Proc

-- ---------------------------------------------------------------------------
-- Layers
-- ---------------------------------------------------------------------------

namespace Storage

/-- The same live items are everywhere under certain keys. -/
def Agree (now : Instant) (named : String → Prop) (storage storage' : Storage) : Prop :=
  ∀ home key, named key →
    (storage.itemsAt home).liveItem? key now = (storage'.itemsAt home).liveItem? key now

section
variable {now : Instant} {named : String → Prop} {before before' after after' : Storage}

theorem Agree.refl (storage : Storage) : Agree now named storage storage := fun _ _ _ => rfl

theorem Agree.trans (h : Agree now named before after) (h' : Agree now named after after') :
    Agree now named before after' :=
  fun home key hkey => (h home key hkey).trans (h' home key hkey)

theorem Agree.symm (h : Agree now named before after) : Agree now named after before :=
  fun home key hkey => (h home key hkey).symm

theorem Agree.later (h : Agree now named before after) {later : Instant} (hle : now ≤ later) :
    Agree later named before after := by
  intro home key hkey
  rw [liveItem_later _ key hle, liveItem_later _ key hle, h home key hkey]

theorem Agree.changed (h : Agree now named before before') {change : Nat ⊕ Nat → String → Change}
    {make : Nat ⊕ Nat → Bytes → Duration → Item}
    (hafter : ∀ home key, Changed now (make home) key (change home key) (before.itemsAt home)
      (after.itemsAt home))
    (hafter' : ∀ home key, Changed now (make home) key (change home key) (before'.itemsAt home)
      (after'.itemsAt home)) : Agree now named after after' := by
  intro home key hkey
  rw [hafter home key now (Nat.le_refl _), hafter' home key now (Nat.le_refl _), h home key hkey]

theorem agree_kept (h : ∀ home key, named key → ∃ make, Changed now make key .kept
    (before.itemsAt home) (after.itemsAt home)) : Agree now named before after := by
  intro home key hkey
  obtain ⟨make, hkept⟩ := h home key hkey
  rw [hkept now (Nat.le_refl _), Change.apply, liveItem_live]

theorem perform_answer (hbacking : before.backing = before'.backing)
    (h : Agree now named before before') (slot : Nat) {op : LayerOp} (hop : ∀ key ∈ op.keys, named key) :
    (before.perform now slot op).1 = (before'.perform now slot op).1 := by
  have hagree (home : Nat ⊕ Nat) : ∀ key ∈ op.keys,
      (before.itemsAt home).liveItem? key now = (before'.itemsAt home).liveItem? key now :=
    fun key hkey => h home key (hop key hkey)
  unfold perform
  rw [hbacking]
  cases before'.backing slot with
  | memory n => exact congrArg Except.ok (Memory.perform_congr now (hagree (.inl n)))
  | network layer n => exact layer.perform_congr now (hagree (.inr n))

theorem Agree.perform (hbacking : before.backing = before'.backing)
    (h : Agree now named before before') (slot : Nat) (op : LayerOp) :
    Agree now named (before.perform now slot op).2 (before'.perform now slot op).2 := by
  refine h.changed (fun home key => before.perform_changed now slot op home key) fun home key => ?_
  have hhome : before.home slot = before'.home slot := congrArg (fun backing => (backing slot).home) hbacking
  exact hhome ▸ before'.perform_changed now slot op home key

theorem agree_perform (storage : Storage) (slot : Nat) {op : LayerOp}
    (hop : ∀ key ∈ op.keys, ¬named key) : Agree now named storage (storage.perform now slot op).2 := by
  refine agree_kept fun home key hkey => ⟨itemAt home now, ?_⟩
  have hkept : op.change key = .kept := LayerOp.change_kept fun hmem => hop key hmem hkey
  have hchanged := storage.perform_changed now slot op home key
  rwa [hkept, ite_self] at hchanged

theorem agree_sweep (storage : Storage) (n : Nat) : Agree now named storage (storage.sweep now n) :=
  agree_kept fun home key _ => ⟨fun _ _ => default, storage.sweep_changed now n home key⟩

end

end Storage

-- ---------------------------------------------------------------------------
-- Calls
-- ---------------------------------------------------------------------------

structure Scene.Alike (named : String → Prop) (scene scene' : Scene) : Prop where
  now : scene.now = scene'.now
  backing : scene.storage.backing = scene'.storage.backing
  storage : Storage.Agree scene.now named scene.storage scene'.storage
  guard : scene.guard = scene'.guard
  draws : scene.draws = scene'.draws

section
variable {named : String → Prop} {scene scene' : Scene} {r : CacheRequest ScriptedLoader}

theorem Scene.Alike.answer (hr : r.Proper named) (h : scene.Alike named scene') :
    (Scene.answer r scene).1 = (Scene.answer r scene').1 ∧
      (Scene.answer r scene).2.Alike named (Scene.answer r scene').2 := by
  obtain ⟨now, storage, guard, draws⟩ := scene
  obtain ⟨now', storage', guard', draws'⟩ := scene'
  obtain ⟨rfl, hbacking, hstorage, rfl, rfl⟩ := h
  have hsame : Scene.Alike named ⟨now, storage, guard, draws⟩ ⟨now, storage', guard, draws⟩ :=
    ⟨rfl, hbacking, hstorage, rfl, rfl⟩
  cases r with
  | layer slot op =>
    refine ⟨Storage.perform_answer hbacking hstorage slot hr.2, rfl, ?_, hstorage.perform hbacking slot op,
      rfl, rfl⟩
    simpa [Scene.answer, Storage.perform_backing] using hbacking
  | draw spread => exact ⟨rfl, rfl, hbacking, hstorage, rfl, rfl⟩
  | join key => exact ⟨rfl, rfl, hbacking, hstorage, rfl, rfl⟩
  | land seat outcome => exact ⟨rfl, rfl, hbacking, hstorage, rfl, rfl⟩
  | leave seat => exact ⟨rfl, rfl, hbacking, hstorage, rfl, rfl⟩
  | turn seat =>
    simp only [Scene.answer]
    split <;> exact ⟨rfl, rfl, hbacking, hstorage, rfl, rfl⟩
  | _ => exact ⟨rfl, hsame⟩

theorem Scene.answer_aside (hr : r.Proper fun key => ¬named key) (scene : Scene) :
    Storage.Agree scene.now named scene.storage (Scene.answer r scene).2.storage := by
  cases r with
  | layer slot op => exact Storage.agree_perform scene.storage slot hr.2
  | turn seat =>
    simp only [Scene.answer]
    split <;> exact .refl _
  | _ => exact .refl _

variable {stack : Stack} {work : Work}

theorem proper_told (stack : Stack) (work : Work) (scene : Scene) :
    ∀ e ∈ (Session.cacheWork (.stacked stack) work).told Scene.answer scene,
      e.1.Proper (stack.Named work.keys) :=
  (Stack.conducts_work stack work _ _ (Proc.ends_told Scene.answer _ scene)).proper

theorem call_alike (hnamed : ∀ key, stack.Named work.keys key → named key)
    (h : scene.Alike named scene') :
    ((Session.cacheWork (.stacked stack) work).run Scene.answer scene).1 =
        ((Session.cacheWork (.stacked stack) work).run Scene.answer scene').1 ∧
      ((Session.cacheWork (.stacked stack) work).run Scene.answer scene).2.Alike named
        ((Session.cacheWork (.stacked stack) work).run Scene.answer scene').2 :=
  Proc.run_alike (fun _ _ _ hr hR => hR.answer hr)
    (fun e he => (proper_told stack work scene e he).mono hnamed) h

/-- A call leaves all other keys alone. -/
theorem call_aside (hnamed : ∀ key, stack.Named work.keys key → ¬named key) (scene : Scene) :
    Storage.Agree scene.now named scene.storage
      ((Session.cacheWork (.stacked stack) work).run Scene.answer scene).2.storage := by
  refine (Proc.run_preserves (I := fun after => after.now = scene.now ∧
    Storage.Agree scene.now named scene.storage after.storage) ?_
    (fun e he => (proper_told stack work scene e he).mono hnamed) ⟨rfl, .refl _⟩).2
  rintro r mid hr ⟨hnow, hagree⟩
  exact ⟨(Scene.answer_now r mid).trans hnow, hagree.trans (hnow ▸ Scene.answer_aside hr mid)⟩

end

-- ---------------------------------------------------------------------------
-- Prefixes
-- ---------------------------------------------------------------------------

section
variable {stack stack' : Stack} {keys : List String} {key : String}

theorem begins_named (h : stack.Named keys key) : Begins stack.settings.keyPrefix key := by
  obtain ⟨k, -, rfl⟩ := h
  exact ⟨k.toList, by simp [Stack.fullKey]⟩

/-- Two prefixes of which neither begins the other begin different keys. -/
theorem not_begins (h : ¬Begins stack.settings.keyPrefix stack'.settings.keyPrefix)
    (h' : ¬Begins stack'.settings.keyPrefix stack.settings.keyPrefix)
    (hkey : Begins stack'.settings.keyPrefix key) : ¬Begins stack.settings.keyPrefix key := by
  intro hfirst
  rcases List.prefix_or_prefix_of_prefix hfirst hkey with hle | hle
  · exact h hle
  · exact h' hle

end

-- ---------------------------------------------------------------------------
-- Two caches
-- ---------------------------------------------------------------------------

def House.Alike (named : String → Prop) (house house' : House) : Prop :=
  (house.scene house.first).Alike named (house'.scene house'.first)

section
variable {named : String → Prop} {house house' : House} {stack : Stack} {work : Work}

theorem House.Alike.call_first (h : house.Alike named house')
    (hnamed : ∀ key, stack.Named work.keys key → named key) :
    ((Session.cacheWork (.stacked stack) work).run Scene.answer (house.scene house.first)).1 =
        ((Session.cacheWork (.stacked stack) work).run Scene.answer (house'.scene house'.first)).1 ∧
      (house.afterFirst ((Session.cacheWork (.stacked stack) work).run Scene.answer
          (house.scene house.first)).2).Alike named
        (house'.afterFirst ((Session.cacheWork (.stacked stack) work).run Scene.answer
          (house'.scene house'.first)).2) := by
  obtain ⟨hanswer, hafter⟩ := call_alike hnamed h
  have hnow := Scene.run_now (Session.cacheWork (.stacked stack) work) (house.scene house.first)
  exact ⟨hanswer, h.now, h.backing, hnow ▸ hafter.storage, hafter.guard, hafter.draws⟩

theorem House.Alike.call_second (h : house.Alike named house')
    (hnamed : ∀ key, stack.Named work.keys key → ¬named key) :
    (house.afterSecond ((Session.cacheWork (.stacked stack) work).run Scene.answer
      (house.scene house.second)).2).Alike named house' := by
  have haside := call_aside hnamed (house.scene house.second)
  exact ⟨h.now, h.backing, haside.symm.trans h.storage, h.guard, h.draws⟩

theorem House.Alike.pass (h : house.Alike named house') (nanos : Nat) :
    House.Alike named { house with now := house.now + nanos } { house' with now := house'.now + nanos } := by
  have hnow : house.now = house'.now := h.now
  exact ⟨congrArg (· + nanos) hnow, h.backing, h.storage.later (Nat.le_add_right ..), h.guard, h.draws⟩

theorem House.Alike.sweep (h : house.Alike named house') (n : Nat) :
    (house.sweep n).Alike named (house'.sweep n) := by
  have hswept (house : House) : Storage.Agree house.now named (house.scene house.first).storage
      ((house.sweep n).scene house.first).storage := Storage.agree_sweep _ n
  have hnow : house.now = house'.now := h.now
  have hright := hswept house'
  rw [← hnow] at hright
  exact ⟨hnow, h.backing, (hswept house).symm.trans (h.storage.trans hright), h.guard, h.draws⟩

/-- Without the calls of the second cache the first one sees the same house. -/
theorem play_alike {first second : Stack} (hfirst : ∀ keys key, first.Named keys key → named key)
    (hsecond : ∀ keys key, second.Named keys key → ¬named key) (moves : List JointMove)
    (h : house.Alike named house') :
    (house.play first second moves).1 =
        (house'.play first second (moves.filter (!·.isSecond))).1 ∧
      (house.play first second moves).2.Alike named
        (house'.play first second (moves.filter (!·.isSecond))).2 := by
  induction moves generalizing house house' with
  | nil => exact ⟨rfl, h⟩
  | cons move moves ih =>
    cases move with
    | first work =>
      obtain ⟨hanswer, hafter⟩ := h.call_first (hfirst work.keys)
      obtain ⟨hanswers, hend⟩ := ih hafter
      exact ⟨congrArg₂ List.cons hanswer hanswers, hend⟩
    | second work => exact ih (h.call_second (hsecond work.keys))
    | pass nanos => exact ih (h.pass nanos)
    | sweep n => exact ih (h.sweep n)

end

/-- Each call on a layer names only keys that the cache was called with, with the prefix before them
once. So when neither of two prefixes begins the other, the calls of the second cache can be left
out: the first one answers the same, and has the same live items under keys with its prefix. -/
theorem prefixes_isolate (first second : Stack)
    (h : ¬Begins first.settings.keyPrefix second.settings.keyPrefix)
    (h' : ¬Begins second.settings.keyPrefix first.settings.keyPrefix)
    (house : House) (moves : List JointMove) :
    let whole := house.play first second moves
    let alone := house.play first second (moves.filter (!·.isSecond))
    (∀ (stack : Stack) work told answer, (Session.cacheWork (.stacked stack) work).Ends told answer →
      ∀ e ∈ told, e.1.Proper (stack.Named work.keys)) ∧
    whole.1 = alone.1 ∧ whole.2.now = alone.2.now ∧
      ∀ key, Begins first.settings.keyPrefix key →
        (∀ n, (whole.2.stores n).items.liveItem? key whole.2.now =
          (alone.2.stores n).items.liveItem? key alone.2.now) ∧
        ∀ n, (whole.2.memories n).entries.liveItem? key whole.2.now =
          (alone.2.memories n).entries.liveItem? key alone.2.now := by
  intro whole alone
  have hself : house.Alike (Begins first.settings.keyPrefix) house :=
    ⟨rfl, rfl, .refl _, rfl, rfl⟩
  obtain ⟨hanswers, hend⟩ := play_alike (fun _ _ => begins_named)
    (fun _ _ hnamed => not_begins h h' (begins_named hnamed)) moves hself
  have hnow : whole.2.now = alone.2.now := hend.now
  refine ⟨fun stack work told answer hends => (Stack.conducts_work stack work told answer hends).proper,
    hanswers, hnow, fun key hkey => ⟨fun n => ?_, fun n => ?_⟩⟩
  · rw [← hnow]
    exact hend.storage (.inr n) key hkey
  · rw [← hnow]
    exact hend.storage (.inl n) key hkey

/-- A cache with a memory layer over a store, beside one that has the store alone. -/
def sharedStore : House where
  now := 10 ^ 12
  memories := fun _ => { limit := 1 }
  stores := fun _ =>
    { batched := true, rules := [], items := Table.ofList [("a:k", ⟨Record.encode [1], none⟩)] }
  first :=
    { backing := fun slot => if slot = 0 then .memory 0 else .network ⟨"remote", none⟩ 0
      draws := fun _ => 0 }
  second := { backing := fun _ => .network ⟨"remote", none⟩ 0, draws := fun _ => 0 }

def contendingMoves : List JointMove :=
  [.second (.set "k" [2] .zero), .first (.get "k"), .second (.delete "k"), .sweep 0,
    .second (.mget ["k", "a:k"]), .first (.get "k"), .second (.delete ""), .first (.get "")]

def Simulation.Answer.lookup? : Answer → Option Lookup
  | .lookup result => some result
  | _ => none

theorem prefixes_isolate_contending :
    let stack (keyPrefix : String) (tiers : List Tier) : Stack :=
      ⟨{ CacheConfig.settings {} with keyPrefix }, tiers⟩
    (sharedStore.play (stack "a:" [⟨0, "memory", true⟩, ⟨1, "remote", true⟩])
        (stack "b:" [⟨0, "remote", true⟩]) contendingMoves).1.map Answer.lookup? =
      [some (.hit [1]), some (.hit [1]), some .miss] := by
  intro stack
  have hisolated := prefixes_isolate (stack "a:" [⟨0, "memory", true⟩, ⟨1, "remote", true⟩])
    (stack "b:" [⟨0, "remote", true⟩]) (by unfold Begins; decide) (by unfold Begins; decide)
    sharedStore contendingMoves
  rw [hisolated.2.1]
  decide +kernel

end StackedCache
