import StackedCache.Proofs.Attempts
import StackedCache.Proofs.Batches

/-!
# Writes among failing layers

A write or a delete goes to every layer, whatever fails on the way, and reports
the first failure. A batch does the same with each of its rows. It leaves what
single writes of its rows leave, in whatever order they are made.
-/

namespace StackedCache

open Simulation CacheProc Storage

/-- By some attempts on layers, of which the faulted ones fail, a program comes to its result. -/
abbrev Faults.Attempts {α : Type} (faults : Faults) (p : CacheProc ScriptedLoader α) (scene : Scene)
    (calls : List (Nat × LayerOp)) (a : α) (after : Scene) : Prop :=
  p.Goes faults.answer (fun e : CacheExchange => e.1.layerCalls) scene calls a after

/-- The program makes all of the calls, in this order, each as often as it is listed, whatever fails; it
reports the first failure, and the layers are left as the calls say. -/
structure Faults.Completes (faults : Faults) (p : CacheProc ScriptedLoader (Except CacheError Unit))
    (scene : Scene) (calls : List (Nat × LayerOp)) (after : Scene) : Prop where
  attempts : faults.Attempts p scene calls (faults.result calls) after
  obeys : scene.Obeys faults calls after

section
variable {faults : Faults} {scene mid after : Scene} {calls : List (Nat × LayerOp)}

-- ---------------------------------------------------------------------------
-- Single attempts
-- ---------------------------------------------------------------------------

/-- What the layer would answer is the reply, unless the call fails. -/
theorem attempts_ask (faults : Faults) (scene : Scene) (slot : Nat) (op : LayerOp) {answer : op.Answer}
    (h : Outages.retold { remaining := faults.remaining } slot op
      (scene.storage.perform scene.now slot op).1 = .ok answer) :
    faults.Attempts (ask (.layer slot op)) scene [(slot, op)]
      ((faults.result [(slot, op)]).map fun _ => answer) (faults.leave [(slot, op)] scene) := by
  have hreply : (faults.answer (.layer slot op) scene).1 =
      (faults.result [(slot, op)]).map fun _ => answer := by
    cases herror : faults.error? slot op with
    | some e => simp only [Faults.answer, Faults.result, Faults.first?, List.findSome?_cons, herror, Except.map]
    | none =>
      simp only [Faults.answer, Faults.result, Faults.first?, List.findSome?_cons, List.findSome?_nil, herror]
      exact h
  exact hreply ▸ ⟨rfl, rfl⟩

/-- A failure is noted, and the program goes on with the first one so far. -/
theorem Faults.Attempts.collect {p : CacheProc ScriptedLoader (Except CacheError Unit)}
    {go : Except CacheError Unit → CacheProc ScriptedLoader (Except CacheError Unit)} {call : Nat × LayerOp}
    (hp : faults.Attempts p scene [call] ((faults.result [call]).map fun _ => ()) mid)
    (hgo : ∀ first, faults.Attempts (go first) mid calls (first.bind fun _ => faults.result calls) after)
    (note : CacheError → Notice) (first : Except CacheError Unit) :
    faults.Attempts
      (p >>= fun
        | .ok () => go first
        | .error e => notice (note e) >>= fun _ => go (first.bind fun _ => .error e))
      scene (call :: calls) (first.bind fun _ => faults.result (call :: calls)) after := by
  rw [← List.singleton_append, faults.result_append]
  refine hp.bind ?_
  cases hresult : faults.result [call] with
  | ok done => exact hgo first
  | error e =>
    -- a failure does not replace the first one
    cases first with
    | ok done => exact Proc.Goes.unseen ⟨rfl, rfl⟩ (hgo (.error e))
    | error earlier => exact Proc.Goes.unseen ⟨rfl, rfl⟩ (hgo (.error earlier))

end

namespace Stack

section
variable (stack : Stack) (faults : Faults) (scene : Scene)

-- ---------------------------------------------------------------------------
-- Attempts on every layer
-- ---------------------------------------------------------------------------

theorem attempts_jittered (ttl : Duration) :
    faults.Attempts (stack.jittered ttl) scene [] (stack.settings.spread ttl scene.draws).1
      { scene with draws := (stack.settings.spread ttl scene.draws).2 } := by
  unfold jittered Settings.spread
  cases Jitter.spread? stack.settings.jitter with
  | none => exact Proc.goes_pure _
  | some spread => exact ⟨rfl, rfl⟩

theorem attempts_writeEach (key : String) (payload : Bytes) (ttl : Duration) (first : Except CacheError Unit)
    (tiers : List Tier) :
    let calls := tiers.map fun tier => (tier.slot, LayerOp.set key payload ttl)
    faults.Attempts (writeEach key payload ttl first tiers) scene calls
      (first.bind fun _ => faults.result calls) (faults.leave calls scene) := by
  induction tiers generalizing scene first with
  | nil => cases first <;> exact Proc.goes_pure _
  | cons tier tiers ih =>
    have hset := attempts_ask faults scene tier.slot (.set key payload ttl) (set_spec ..).1
    exact hset.collect (fun first => ih _ first) (fun e => .writeFailed key tier.name e.message) first

theorem attempts_deleteEach (key : String) (first : Except CacheError Unit) (tiers : List Tier) :
    let calls := tiers.map fun tier => (tier.slot, LayerOp.delete key)
    faults.Attempts (deleteEach key first tiers) scene calls (first.bind fun _ => faults.result calls)
      (faults.leave calls scene) := by
  induction tiers generalizing scene first with
  | nil => cases first <;> exact Proc.goes_pure _
  | cons tier tiers ih =>
    have hdelete := attempts_ask faults scene tier.slot (.delete key) (delete_spec ..).1
    exact hdelete.collect (fun first => ih _ first) (fun e => .deleteFailed key tier.name e.message) first

/-- The attempts of a batch: each row in each layer, layer by layer. -/
def rowCalls (tiers : List Tier) (rows : List (String × Bytes × Duration)) : List (Nat × LayerOp) :=
  tiers.flatMap fun tier => rows.map fun row => (tier.slot, .set row.1 row.2.1 row.2.2)

theorem attempts_writeRows (tier : Tier) (first : Except CacheError Unit)
    (rows : List (String × Bytes × Duration)) :
    let calls := rows.map fun row => (tier.slot, LayerOp.set row.1 row.2.1 row.2.2)
    faults.Attempts (writeRows tier first rows) scene calls (first.bind fun _ => faults.result calls)
      (faults.leave calls scene) := by
  induction rows generalizing scene first with
  | nil => cases first <;> exact Proc.goes_pure _
  | cons row rows ih =>
    have hset := attempts_ask faults scene tier.slot (.set row.1 row.2.1 row.2.2) (set_spec ..).1
    exact hset.collect (fun first => ih _ first) (fun e => .writeFailed row.1 tier.name e.message) first

theorem attempts_writeRowsEach (rows : List (String × Bytes × Duration)) (first : Except CacheError Unit)
    (tiers : List Tier) :
    faults.Attempts (writeRowsEach rows first tiers) scene (rowCalls tiers rows)
      (first.bind fun _ => faults.result (rowCalls tiers rows)) (faults.leave (rowCalls tiers rows) scene) := by
  induction tiers generalizing scene first with
  | nil => cases first <;> exact Proc.goes_pure _
  | cons tier tiers ih =>
    have hcalls : rowCalls (tier :: tiers) rows =
        (rows.map fun row => (tier.slot, .set row.1 row.2.1 row.2.2)) ++ rowCalls tiers rows :=
      List.flatMap_cons
    have hfirst := attempts_writeRows faults scene tier first rows
    have hresult (calls calls' : List (Nat × LayerOp)) : (first.bind fun _ => faults.result (calls ++ calls')) =
        (first.bind fun _ => faults.result calls).bind fun _ => faults.result calls' := by
      rw [faults.result_append]
      cases first <;> rfl
    rw [hcalls, faults.leave_append, hresult]
    exact hfirst.bind (ih _ _)

theorem consistent_tiers (tiers : List Tier) (op : LayerOp) : Consistent (tiers.map fun tier => (tier.slot, op)) := by
  intro call hcall call' hcall' key _ _
  obtain ⟨tier, -, rfl⟩ := List.mem_map.mp hcall
  obtain ⟨tier', -, rfl⟩ := List.mem_map.mp hcall'
  rfl

theorem drawn_nodup (ttl : Duration) (draws : Nat → Rat) (items : Table Bytes) :
    ((stack.drawn ttl draws items.rows).1.map Prod.fst).Nodup := by
  have hinj : Function.Injective stack.fullKey := fun _ _ => fullKey_inj.mp
  have hnodup := items.nodup.map hinj
  rw [List.map_map] at hnodup
  rw [drawn_keys]
  exact hnodup

theorem mem_rowCalls {tiers : List Tier} {rows : List (String × Bytes × Duration)} {call : Nat × LayerOp} :
    call ∈ rowCalls tiers rows ↔
      ∃ tier ∈ tiers, ∃ row ∈ rows, (tier.slot, .set row.1 row.2.1 row.2.2) = call := by
  simp [rowCalls]

theorem rowCalls_perm (tiers : List Tier) {rows rows' : List (String × Bytes × Duration)}
    (h : rows'.Perm rows) (call : Nat × LayerOp) : call ∈ rowCalls tiers rows ↔ call ∈ rowCalls tiers rows' := by
  simp only [mem_rowCalls, h.mem_iff]

theorem consistent_rowCalls (tiers : List Tier) {rows : List (String × Bytes × Duration)}
    (hrows : (rows.map Prod.fst).Nodup) : Consistent (rowCalls tiers rows) := by
  have hkey {slot : Nat} {row : String × Bytes × Duration} {key : String}
      (h : LayerOp.change key (slot, LayerOp.set row.1 row.2.1 row.2.2).2 ≠ .kept) : row.1 = key := by
    by_contra hne
    exact h (if_neg hne)
  intro call hcall call' hcall' key hchange hchange'
  obtain ⟨tier, -, row, hrow, rfl⟩ := mem_rowCalls.mp hcall
  obtain ⟨tier', -, row', hrow', rfl⟩ := mem_rowCalls.mp hcall'
  rw [row_unique hrows hrow hrow' ((hkey hchange).trans (hkey hchange').symm)]

theorem attempts_drawRows (ttl : Duration) (items : List (String × Bytes)) :
    faults.Attempts (stack.drawRows ttl items) scene [] (stack.drawn ttl scene.draws items).1
      { scene with draws := (stack.drawn ttl scene.draws items).2 } := by
  induction items generalizing scene with
  | nil => exact Proc.goes_pure _
  | cons item items ih =>
    exact (attempts_jittered stack faults scene ttl).unseen ((ih _).unseen (Proc.goes_pure _))

-- ---------------------------------------------------------------------------
-- Whole calls
-- ---------------------------------------------------------------------------

theorem completes_spreadWrite (key : String) (payload : Bytes) (ttl : Duration) :
    ∃ after, faults.Completes
      (stack.jittered ttl >>= fun ttl => writeEach key payload ttl (.ok ()) stack.tiers) scene
      (stack.tiers.map fun tier => (tier.slot, .set key payload (stack.settings.spread ttl scene.draws).1))
      after := by
  refine ⟨_, (attempts_jittered stack faults scene ttl).unseen (attempts_writeEach ..), ?_⟩
  exact (obeys_leave faults _ (consistent_tiers _ _)).redrawn

theorem completes_delete (key : String) :
    ∃ after, faults.Completes (stack.delete key) scene
        (stack.tiers.map fun tier => (tier.slot, .delete (stack.fullKey key))) after ∧
      ∀ tier ∈ stack.tiers, faults.error? tier.slot (.delete (stack.fullKey key)) = none →
        (after.storage.items tier.slot).get? (stack.fullKey key) = none := by
  refine ⟨_, ⟨attempts_deleteEach .., obeys_leave faults scene (consistent_tiers _ _)⟩, ?_⟩
  intro tier htier hspared
  have hgone := leave_deleted faults scene (List.mem_map_of_mem (f := Tier.slot) htier) hspared
  rwa [List.map_map] at hgone

theorem attempts_mset (items : Table Bytes) (ttl : Duration) :
    let rows := stack.drawn (stack.resolveTtl ttl) scene.draws items.rows
    faults.Attempts (stack.mset items ttl) scene (rowCalls stack.tiers rows.1)
      (faults.result (rowCalls stack.tiers rows.1))
      (faults.leave (rowCalls stack.tiers rows.1) { scene with draws := rows.2 }) := by
  intro rows
  cases hitems : items.isEmpty with
  | true =>
    have hrows : rows = ([], scene.draws) := by
      simp only [rows, List.isEmpty_iff.mp hitems, drawn]
    have hcalls : rowCalls stack.tiers [] = [] := by simp [rowCalls]
    rw [hrows, hcalls]
    simp only [mset, hitems, ↓reduceIte]
    exact Proc.goes_pure _
  | false =>
    simp only [mset, hitems]
    exact (attempts_drawRows stack faults scene (stack.resolveTtl ttl) items.rows).unseen
      (attempts_writeRowsEach ..)

theorem completes_mset (items : Table Bytes) (ttl : Duration) :
    let rows := stack.drawn (stack.resolveTtl ttl) scene.draws items.rows
    faults.Completes (stack.mset items ttl) scene (rowCalls stack.tiers rows.1)
      (faults.leave (rowCalls stack.tiers rows.1) { scene with draws := rows.2 }) :=
  ⟨attempts_mset stack faults scene items ttl,
    (obeys_leave faults _ (consistent_rowCalls stack.tiers (drawn_nodup stack _ _ items))).redrawn⟩

def setAll {Loader : Type} (stack : Stack) (ttl : Duration) : List (String × Bytes) → CacheProc Loader Unit
  | [] => pure ()
  | (key, value) :: items => do
    let _ ← stack.set key value ttl
    stack.setAll ttl items

def tierCalls (tiers : List Tier) (rows : List (String × Bytes × Duration)) : List (Nat × LayerOp) :=
  rows.flatMap fun row => tiers.map fun tier => (tier.slot, .set row.1 row.2.1 row.2.2)

theorem mem_tierCalls {tiers : List Tier} {rows : List (String × Bytes × Duration)} {call : Nat × LayerOp} :
    call ∈ tierCalls tiers rows ↔ call ∈ rowCalls tiers rows := by
  simp only [tierCalls, rowCalls, List.mem_flatMap, List.mem_map]
  exact ⟨fun ⟨row, hrow, tier, htier, h⟩ => ⟨tier, htier, row, hrow, h⟩,
    fun ⟨tier, htier, row, hrow, h⟩ => ⟨row, hrow, tier, htier, h⟩⟩

theorem attempts_setAll (ttl : Duration) (items : List (String × Bytes)) :
    let rows := stack.drawn (stack.resolveTtl ttl) scene.draws items
    faults.Attempts (stack.setAll ttl items) scene (tierCalls stack.tiers rows.1) ()
      (faults.leave (tierCalls stack.tiers rows.1) { scene with draws := rows.2 }) := by
  induction items generalizing scene with
  | nil => exact Proc.goes_pure _
  | cons item items ih =>
    intro rows
    let spread := stack.settings.spread (stack.resolveTtl ttl) scene.draws
    let calls := stack.tiers.map fun tier =>
      (tier.slot, LayerOp.set (stack.fullKey item.1) (Record.encode item.2) spread.1)
    have hset : faults.Attempts (stack.set item.1 item.2 ttl) scene calls (faults.result calls)
        { faults.leave calls scene with draws := spread.2 } := by
      rw [← leave_draws]
      exact (attempts_jittered stack faults scene (stack.resolveTtl ttl)).unseen (attempts_writeEach ..)
    have hrest := ih { faults.leave calls scene with draws := spread.2 }
    have hcalls : tierCalls stack.tiers rows.1 =
        calls ++ tierCalls stack.tiers (stack.drawn (stack.resolveTtl ttl) spread.2 items).1 :=
      List.flatMap_cons
    rw [hcalls, faults.leave_append, leave_draws faults calls]
    exact hset.bind hrest

end

-- ---------------------------------------------------------------------------
-- Draws in another order
-- ---------------------------------------------------------------------------

def drawBefore (first : Rat) (rest : Nat → Rat) : Nat → Rat
  | 0 => first
  | n + 1 => rest n

theorem spread_cons (settings : Settings) (ttl : Duration) (draws rest : Nat → Rat) :
    ∃ draws', settings.spread ttl draws' = ((settings.spread ttl draws).1, rest) := by
  unfold Settings.spread
  cases Jitter.spread? settings.jitter with
  | none => exact ⟨rest, rfl⟩
  | some _ => exact ⟨drawBefore (draws 0) rest, rfl⟩

/-- In any order of the items there are draws by which each has the time to live that it had. -/
theorem exists_drawn_perm (stack : Stack) (ttl : Duration) {order items : List (String × Bytes)}
    (h : order.Perm items) (draws : Nat → Rat) :
    ∃ draws', (stack.drawn ttl draws' order).1.Perm (stack.drawn ttl draws items).1 := by
  induction h generalizing draws with
  | nil => exact ⟨draws, .refl _⟩
  | cons item _ ih =>
    obtain ⟨rest, hrest⟩ := ih (stack.settings.spread ttl draws).2
    obtain ⟨draws', hfirst⟩ := spread_cons stack.settings ttl draws rest
    refine ⟨draws', ?_⟩
    simp only [drawn, hfirst]
    exact hrest.cons _
  | swap first second items =>
    let once := stack.settings.spread ttl draws
    let twice := stack.settings.spread ttl once.2
    obtain ⟨later, hlater⟩ := spread_cons stack.settings ttl draws twice.2
    obtain ⟨draws', hfirst⟩ := spread_cons stack.settings ttl once.2 later
    refine ⟨draws', ?_⟩
    simp only [drawn, hfirst, hlater]
    exact .swap ..
  | trans _ _ ih ih' =>
    obtain ⟨between, hbetween⟩ := ih' draws
    obtain ⟨draws', hdraws⟩ := ih between
    exact ⟨draws', hdraws.trans hbetween⟩

end Stack

open Stack

def Scene.LiveAlike (scene scene' : Scene) (now : Instant) : Prop :=
  ∀ slot key t, now ≤ t → scene'.item? slot key t = scene.item? slot key t

/-- Whatever fails: a write, a negative one too, and a delete attempt every layer once and in order and
report the first failure. The layers that did not fail then have the record, with the one time to live
that was drawn for the call, or nothing under the key, and nothing else has changed. A batch does so with
each row in each layer; in whatever order it takes its rows, it leaves what single writes in any order
leave, if the same times to live are drawn for them. -/
theorem writes_fan_out (stack : Stack) (faults : Faults) (scene : Scene) :
    (∀ key value ttl, ∃ after, faults.Completes (stack.set key value ttl) scene
      (stack.tiers.map fun tier => (tier.slot, .set (stack.fullKey key) (Record.encode value)
        (stack.settings.spread (stack.resolveTtl ttl) scene.draws).1)) after) ∧
    (∀ key, ∃ after, faults.Completes (stack.setNegative key) scene
      (stack.tiers.map fun tier => (tier.slot, .set (stack.fullKey key) Record.encodeNegative
        (stack.settings.spread stack.settings.negativeTtl scene.draws).1)) after) ∧
    (∀ key, ∃ after, faults.Completes (stack.delete key) scene
        (stack.tiers.map fun tier => (tier.slot, .delete (stack.fullKey key))) after ∧
      ∀ tier ∈ stack.tiers, faults.error? tier.slot (.delete (stack.fullKey key)) = none →
        (after.storage.items tier.slot).get? (stack.fullKey key) = none) ∧
    ∀ (items : Table Bytes) ttl,
      let rows := (stack.drawn (stack.resolveTtl ttl) scene.draws items.rows).1
      ∃ after, faults.Completes (stack.mset items ttl) scene (rowCalls stack.tiers rows) after ∧
        ∀ order : List (String × Bytes), order.Perm items.rows →
          (∃ draws, (stack.drawn (stack.resolveTtl ttl) draws order).1.Perm rows) ∧
          ∀ draws rows', rows' = (stack.drawn (stack.resolveTtl ttl) draws order).1 → rows'.Perm rows →
            (∀ items' : Table Bytes, items'.rows = order → ∃ after',
              faults.Completes (stack.mset items' ttl) { scene with draws } (rowCalls stack.tiers rows') after' ∧
                after.LiveAlike after' scene.now) ∧
            ∃ after', faults.Attempts (stack.setAll ttl order) { scene with draws }
              (tierCalls stack.tiers rows') () after' ∧ after.LiveAlike after' scene.now := by
  refine ⟨fun key value ttl => completes_spreadWrite stack faults scene _ _ _,
    fun key => completes_spreadWrite stack faults scene _ _ _, completes_delete stack faults scene, ?_⟩
  intro items ttl rows
  have hagree : Consistent (rowCalls stack.tiers rows) :=
    consistent_rowCalls stack.tiers (drawn_nodup stack _ _ items)
  refine ⟨_, completes_mset stack faults scene items ttl, ?_⟩
  intro order horder
  refine ⟨exists_drawn_perm stack (stack.resolveTtl ttl) horder scene.draws, ?_⟩
  rintro draws rows' rfl hrows
  have hsame := rowCalls_perm stack.tiers hrows
  constructor
  · rintro items' rfl
    refine ⟨_, completes_mset stack faults { scene with draws } items' ttl, fun slot key t ht => ?_⟩
    exact leave_item? hagree hsame _ _ ht
  · refine ⟨_, attempts_setAll stack faults { scene with draws } ttl order, fun slot key t ht => ?_⟩
    exact leave_item? hagree (fun call => (hsame call).trans mem_tierCalls.symm) _ _ ht

def refusedRows : Faults where
  error? := fun slot op =>
    match slot, op with
    | 1, .set "p:b" _ _ => some (.timeout "mid" (.ofNanos 1))
    | 2, .set _ _ _ => some (.timeout "far" (.ofNanos 1))
    | _, _ => none

theorem writes_fan_out_refused : ∃ calls after,
    refusedRows.Attempts (fadedStack.mset ⟨[("b", [8]), ("a", [7])], by decide⟩ .zero) fadedLayers calls
      (.error (.timeout "mid" (.ofNanos 1))) after ∧
    calls.length = 8 ∧
    (∃ item, after.item? 1 "p:a" fadedLayers.now = some item ∧ item.payload = Record.encode [7]) ∧
    after.item? 1 "p:b" fadedLayers.now = none ∧
    after.item? 2 "p:a" fadedLayers.now = some ⟨Record.encode [2], none⟩ := by
  obtain ⟨-, -, -, hmset⟩ := writes_fan_out fadedStack refusedRows fadedLayers
  obtain ⟨after, ⟨hattempts, hobeys⟩, -⟩ := hmset ⟨[("b", [8]), ("a", [7])], by decide⟩ .zero
  refine ⟨_, after, hattempts, rfl, ?_, ?_, ?_⟩
  · have hcall := List.mem_of_getElem? (i := 3) (l := rowCalls fadedStack.tiers
      (fadedStack.drawn (fadedStack.resolveTtl .zero) fadedLayers.draws [("b", [8]), ("a", [7])]).1) rfl
    obtain ⟨item, hitem, hpayload, -⟩ := hobeys.written hcall rfl (if_pos rfl)
    exact ⟨item, hitem, hpayload⟩
  · exact (hobeys.kept (Nat.le_refl _) (by decide +kernel)).trans (by decide +kernel)
  · exact (hobeys.kept (Nat.le_refl _) (by decide +kernel)).trans (by decide +kernel)

end StackedCache
