import StackedCache.Proofs.Concurrency.Carrying
import StackedCache.Proofs.Concurrency.Sources

/-!
# Deleted keys

A delete goes through the layers one after the other, and so do lookups, with
nothing to keep them apart. What a delete has dropped from a layer can come
back in one way only: a lookup has found the key further down before the delete
got there, and copies it upwards when the delete has passed. Without such a
copy a deleted key stays deleted until somebody writes it again.
-/

namespace StackedCache.Concurrency

open Simulation

-- ---------------------------------------------------------------------------
-- Steps
-- ---------------------------------------------------------------------------

section
variable {Loader α : Type} {env : Surroundings Loader} {s t : System env α} {e : Event Loader}

theorem System.LooseStep.forall_tasks {P : Nat → Task Loader α → Prop} (hs : s.LooseStep e t)
    (hsame : ∀ {j task}, s.tasks[j]? = some task → P j task) (hdropped : ∀ j, P j .dropped)
    (hnext : ∀ {i stance stance' r next reply}, s.tasks[i]? = some (.live stance (Proc.ask r next)) →
      (r.onFlight = true ∨ e = .acted i r reply) → P i (.live stance' (next reply)))
    {j : Nat} {task : Task Loader α} (hj : t.tasks[j]? = some task) : P j task := by
  have hset {i : Nat} {new : Task Loader α} (hnew : P i new)
      (hj : (s.setTask i new).tasks[j]? = some task) : P j task := forall_setTask (P := P) hsame hnew hj
  cases hs with
  | effect _ _ => exact hsame hj
  | step hs =>
    cases hs with
    | join hi => exact hset (hnext hi (.inl rfl)) hj
    | lead hi _ => exact hset (hnext hi (.inl rfl)) hj
    | arrive hi _ => exact hset (hnext hi (.inl rfl)) hj
    | land hi => exact hset (hnext hi (.inl rfl)) hj
    | leave hi => exact hset (hnext hi (.inl rfl)) hj
    | act hi _ _ => exact hset (hnext hi (.inr rfl)) hj
    | cancel _ _ => exact hset (hdropped _) hj
    | wait _ _ => exact hsame hj
    | drift _ => exact hsame hj

theorem System.LooseStep.state_cases (hs : s.LooseStep e t) :
    (∃ i stance r next reply, e = .acted i r reply ∧ s.tasks[i]? = some (.live stance (Proc.ask r next)) ∧
      env.answers s.state r reply t.state) ∨
    (∀ i, e.exchange? i = none) ∧ (t.state = s.state ∨ env.drifts s.state t.state) := by
  cases hs with
  | effect hi ha => exact .inl ⟨_, _, _, _, _, rfl, hi, ha⟩
  | step hs =>
    cases hs with
    | act hi _ ha => exact .inl ⟨_, _, _, _, _, rfl, hi, ha⟩
    | drift h => exact .inr ⟨fun _ => rfl, .inr h⟩
    | _ => exact .inr ⟨fun _ => rfl, .inl rfl⟩

end

-- ---------------------------------------------------------------------------
-- Deletions
-- ---------------------------------------------------------------------------

/-- Among the calls on a cache one deletes a key and one looks it up. -/
structure Deletion where
  stack : Stack
  each : Nat → Bool := fun _ => false
  works : List Work
  place : Place
  guard : Flights := {}
  key : String
  deleter : Nat
  reader : Nat
  deletes : works[deleter]? = some (.delete key)
  reads : works[reader]? = some (.get key)
  clock : place.now < Instant.horizon

namespace Deletion

variable (d : Deletion)

def full : String := d.stack.fullKey d.key

def start : System (inUnreliablePlace ScriptedLoader) Answer :=
  .start d.place (programsOf d.stack d.each d.works) d.guard

def cluesOf (trace : List (Event ScriptedLoader)) (i : Nat) : Clues :=
  cluesIn d.full (exchanges i trace)

/-- The deleting task is done with the place where the slot has its items. -/
def Cleared (trace : List (Event ScriptedLoader)) (slot : Nat) : Prop :=
  ∃ slot', d.place.storage.home slot' = d.place.storage.home slot ∧
    d.cluesOf trace d.deleter (.removed slot')

/-- A lookup has found a payload in a layer when the delete was not yet done with it, and puts the
payload into a layer above when the delete is done with that one. -/
structure LateCopy (trace : List (Event ScriptedLoader)) where
  task : Nat
  work : Work
  named : d.works[task]? = some work
  looksUp : LooksUp d.key work
  upper : List Tier
  lower : Tier
  below : List Tier
  layers : d.stack.tiers = upper ++ lower :: below
  tier : Tier
  above : tier ∈ upper
  payload : Bytes
  ttl : Duration
  found : CacheExchange
  fetches : Fetches found lower.slot d.full (some payload)
  op : LayerOp
  reply : op.Reply
  puts : op.Puts d.full payload ttl
  seen : List (Event ScriptedLoader)
  between : List (Event ScriptedLoader)
  order : seen ++ .acted task found.1 found.2 ::
    (between ++ [.acted task (.layer tier.slot op) reply]) <+: trace
  early : ¬d.Cleared seen lower.slot
  late : d.Cleared (seen ++ .acted task found.1 found.2 :: between) tier.slot

/-- The delete takes place in the middle of a run, and the lookup after it. From the beginning of the
delete on nobody gives the key a content. -/
structure History (before during after : List (Event ScriptedLoader))
    (s : System (inUnreliablePlace ScriptedLoader) Answer) : Prop where
  run : Run System.LooseStep d.start (before ++ (during ++ after)) s
  begins : ∀ e ∈ before, e.task? ≠ some d.deleter
  ends : ∀ e ∈ after, e.task? ≠ some d.deleter
  succeeds : s.tasks[d.deleter]?.bind Task.result? = some .done
  alone : ∀ e ∈ during ++ after, ∀ i work, e.task? = some i → d.works[i]? = some work →
    Refrains d.key work
  follows : ∀ e ∈ before ++ during, e.task? ≠ some d.reader

def Carried (trace : List (Event ScriptedLoader)) (i : Nat) : Task ScriptedLoader Answer → Prop
  | .live _ p => ∃ work, d.works[i]? = some work ∧ (Refrains d.key work →
    p.Keeps (carrying d.stack d.key work) (Concludes d.stack d.key work) (d.cluesOf trace i))
  | .dropped => True

/-- A deleted key is gone from where it has been deleted. -/
structure Gone (trace : List (Event ScriptedLoader))
    (s : System (inUnreliablePlace ScriptedLoader) Answer) : Prop where
  clock : s.state.now < Instant.horizon
  home (slot : Nat) : s.state.storage.home slot = d.place.storage.home slot
  tasks {i : Nat} {task : Task ScriptedLoader Answer} : s.tasks[i]? = some task → d.Carried trace i task
  empty {slot : Nat} {item : Item} : d.Cleared trace slot → ¬s.state.storage.Holds slot d.full item
  /-- Whatever was found there was found before. -/
  timely {seen rest : List (Event ScriptedLoader)} {i slot : Nat} {found : CacheExchange}
    {payload : Bytes} : trace = seen ++ .acted i found.1 found.2 :: rest →
    Fetches found slot d.full (some payload) → ¬d.Cleared seen slot

variable {d} {trace more : List (Event ScriptedLoader)}
  {s t : System (inUnreliablePlace ScriptedLoader) Answer} {e : Event ScriptedLoader} {i slot slot' : Nat}

theorem cluesOf_append {clue : Clue} (h : d.cluesOf trace i clue) : d.cluesOf (trace ++ more) i clue := by
  obtain ⟨x, hx, hshows⟩ := h
  exact ⟨x, mem_exchanges.mpr (List.mem_append_left _ (mem_exchanges.mp hx)), hshows⟩

theorem Cleared.append (h : d.Cleared trace slot) : d.Cleared (trace ++ more) slot :=
  h.imp fun _ => And.imp_right cluesOf_append

theorem Cleared.of_home (h : d.Cleared trace slot)
    (hhome : d.place.storage.home slot = d.place.storage.home slot') : d.Cleared trace slot' :=
  h.imp fun _ => And.imp_left fun h => h.trans hhome

theorem Cleared.snoc_cases (h : d.Cleared (trace ++ [e]) slot) : d.Cleared trace slot ∨
    ∃ slot', d.place.storage.home slot' = d.place.storage.home slot ∧
      e = .acted d.deleter (.layer slot' (.delete d.full)) (.ok ()) := by
  obtain ⟨slot', hhome, x, hx, hshows⟩ := h
  cases hshows
  rcases List.mem_append.mp (mem_exchanges.mp hx) with hx | hx
  · exact .inl ⟨slot', hhome, _, mem_exchanges.mpr hx, .removed⟩
  · exact .inr ⟨slot', hhome, (List.mem_singleton.mp hx).symm⟩

def LateCopy.append (copy : d.LateCopy trace) : d.LateCopy (trace ++ more) :=
  { copy with order := copy.order.trans (List.prefix_append trace more) }

-- ---------------------------------------------------------------------------
-- Steps of a run
-- ---------------------------------------------------------------------------

theorem Carried.snoc {task : Task ScriptedLoader Answer} (h : d.Carried trace i task) :
    d.Carried (trace ++ [e]) i task := by
  cases task with
  | dropped => trivial
  | live stance p =>
    obtain ⟨work, hwork, hkeeps⟩ := h
    refine ⟨work, hwork, fun hrefrains => (hkeeps hrefrains).informed ?_ ?_ ?_⟩
    · exact fun r hcarries => hcarries.mono fun _ => cluesOf_append
    · exact fun r reply later hlater => ⟨fun clue hclue => hlater.1 clue (cluesOf_append hclue), hlater.2⟩
    · exact fun answer hconcludes => hconcludes.mono fun _ => cluesOf_append

theorem carried_start {task : Task ScriptedLoader Answer} (hi : d.start.tasks[i]? = some task) :
    d.Carried [] i task := by
  simp only [start, System.start, programsOf, List.map_map, List.getElem?_map,
    Option.map_eq_some_iff] at hi
  obtain ⟨work, hwork, rfl⟩ := hi
  refine ⟨work, hwork, fun hrefrains => ?_⟩
  have hnone : d.cluesOf [] i = fun _ => False := by
    funext clue
    simp [cluesOf, cluesIn, exchanges]
  exact hnone ▸ hrefrains.keeps d.each

theorem gone_start : d.Gone [] d.start := by
  have hnot {slot : Nat} : ¬d.Cleared [] slot := by
    rintro ⟨slot', -, x, hx, -⟩
    cases hx
  refine ⟨d.clock, fun _ => rfl, carried_start, fun hcleared => absurd hcleared hnot, fun h => ?_⟩
  simp at h

namespace Gone

theorem copies (h : d.Gone trace s) {stance : Stance} {op : LayerOp} {next : op.Reply → _}
    (hi : s.tasks[i]? = some (.live stance (Proc.ask (.layer slot op) next))) {payload : Bytes}
    {ttl : Duration} (hputs : op.Puts d.full payload ttl)
    (hrefrain : ∀ work, d.works[i]? = some work → Refrains d.key work) :
    ∃ work, d.works[i]? = some work ∧ LooksUp d.key work ∧
      FoundBelow d.stack (d.cluesOf trace i) slot payload := by
  obtain ⟨work, hwork, hkeeps⟩ := h.tasks hi
  exact ⟨work, hwork, (hkeeps (hrefrain work hwork)).1 payload ttl hputs⟩

/-- What is put where the delete has been comes from where it had not yet been. -/
theorem lateCopy (h : d.Gone trace s) {stance : Stance} {op : LayerOp} {next : op.Reply → _}
    (hi : s.tasks[i]? = some (.live stance (Proc.ask (.layer slot op) next))) {payload : Bytes}
    {ttl : Duration} (hputs : op.Puts d.full payload ttl)
    (hrefrain : ∀ work, d.works[i]? = some work → Refrains d.key work) (hcleared : d.Cleared trace slot)
    (reply : op.Reply) : Nonempty (d.LateCopy (trace ++ [.acted i (.layer slot op) reply])) := by
  obtain ⟨work, hwork, hlooks, upper, lower, below, htiers, ⟨tier, htier, rfl⟩, x, hx, hshows⟩ :=
    h.copies hi hputs hrefrain
  obtain ⟨seen, between, htrace⟩ := List.append_of_mem (mem_exchanges.mp hx)
  cases hshows with
  | found hfetches =>
    exact ⟨{
      task := i, work, named := hwork, looksUp := hlooks, upper, lower, below, layers := htiers
      tier, above := htier, payload, ttl, found := x, fetches := hfetches, op, reply, puts := hputs
      seen, between
      order := by simp [htrace]
      early := h.timely htrace hfetches
      late := htrace ▸ hcleared }⟩

theorem empty_after (h : d.Gone trace s) (hs : s.LooseStep e t)
    (hrefrain : ∀ slot, d.Cleared trace slot → ∀ i work, e.task? = some i → d.works[i]? = some work →
      Refrains d.key work) (hnot : ¬Nonempty (d.LateCopy (trace ++ [e]))) {item : Item}
    (hcleared : d.Cleared (trace ++ [e]) slot) : ¬t.state.storage.Holds slot d.full item := by
  intro hitem
  rcases hs.state_cases with ⟨i, stance, r, next, reply, rfl, hi, ha⟩ | ⟨hother, hstate⟩
  · rcases hcleared.snoc_cases with hbefore | ⟨slot', hhome, hdelete⟩
    · rcases Place.tolerates_holds ha hitem with hheld | ⟨slot', op, payload, ttl, rfl, hhome, hputs, -⟩
      · exact h.empty hbefore hheld
      · rw [h.home, h.home] at hhome
        exact hnot (h.lateCopy hi hputs (fun work => hrefrain slot hbefore i work rfl)
          (hbefore.of_home hhome) reply)
    · cases hdelete
      refine Place.tolerates_deleted ha ?_ item hitem
      rw [h.home, h.home, hhome]
  · have hbefore : d.Cleared trace slot := by
      refine hcleared.snoc_cases.resolve_right ?_
      rintro ⟨slot', -, rfl⟩
      simpa [Event.exchange?] using hother d.deleter
    rcases hstate with hsame | hdrift
    · exact h.empty hbefore (hsame ▸ hitem)
    · exact h.empty hbefore (Place.strays_holds hdrift hitem)

theorem timely_after (h : d.Gone trace s) (hs : s.LooseStep e t)
    {seen rest : List (Event ScriptedLoader)} {found : CacheExchange} {payload : Bytes}
    (htrace : trace ++ [e] = seen ++ .acted i found.1 found.2 :: rest)
    (hfetches : Fetches found slot d.full (some payload)) : ¬d.Cleared seen slot := by
  rcases List.eq_nil_or_concat rest with rfl | ⟨rest, last, rfl⟩
  · obtain ⟨rfl, he⟩ := List.append_inj' htrace rfl
    intro hcleared
    rcases hs.state_cases with ⟨i', stance, r, next, reply, rfl, -, ha⟩ | ⟨hother, -⟩
    · cases he
      obtain ⟨item, hitem, -⟩ := visible_held (Place.tolerates_fetches h.clock ha hfetches)
      exact h.empty hcleared hitem
    · obtain rfl := List.singleton_inj.mp he
      simpa [Event.exchange?] using hother i
  · rw [List.concat_eq_append, ← List.cons_append, ← List.append_assoc] at htrace
    exact h.timely (List.append_inj' htrace rfl).1 hfetches

theorem step (h : d.Gone trace s) (hs : s.LooseStep e t)
    (hrefrain : ∀ slot, d.Cleared trace slot → ∀ i work, e.task? = some i → d.works[i]? = some work →
      Refrains d.key work) : d.Gone (trace ++ [e]) t ∨ Nonempty (d.LateCopy (trace ++ [e])) := by
  refine or_iff_not_imp_right.mpr fun hnot => ?_
  refine ⟨?_, fun slot => ?_, fun hj => ?_, h.empty_after hs hrefrain hnot, h.timely_after hs⟩
  · rcases hs.state_cases with ⟨i, stance, r, next, reply, rfl, hi, ha⟩ | ⟨-, hsame | hdrift⟩
    · exact Place.tolerates_now ha ▸ h.clock
    · exact hsame ▸ h.clock
    · exact (Place.strays_clock hdrift h.clock).2
  · rcases hs.state_cases with ⟨i, stance, r, next, reply, rfl, hi, ha⟩ | ⟨-, hsame | hdrift⟩
    · exact (Place.tolerates_home ha slot).trans (h.home slot)
    · rw [hsame, h.home]
    · exact (Place.strays_home hdrift slot).trans (h.home slot)
  · refine hs.forall_tasks (P := d.Carried (trace ++ [e])) (fun hj => (h.tasks hj).snoc)
      (fun _ => trivial) (fun {i stance stance' r next reply} hi hr => ?_) hj
    obtain ⟨work, hwork, hkeeps⟩ := h.tasks hi
    refine ⟨work, hwork, fun hrefrains => (hkeeps hrefrains).2 reply _ ⟨fun _ => cluesOf_append, ?_⟩⟩
    intro clue hshows
    rcases hr with hflight | rfl
    · cases hshows.onFlight_eq.symm.trans hflight
    · exact ⟨_, mem_exchanges.mpr (List.mem_append_right _ List.mem_cons_self), hshows⟩

end Gone

-- ---------------------------------------------------------------------------
-- Runs
-- ---------------------------------------------------------------------------

theorem Gone.concludes (h : d.Gone trace s) {work : Work} {answer : Answer}
    (hwork : d.works[i]? = some work) (hrefrains : Refrains d.key work)
    (hresult : s.tasks[i]?.bind Task.result? = some answer) :
    Concludes d.stack d.key work (d.cluesOf trace i) answer := by
  obtain ⟨task, hi, hresult⟩ := Option.bind_eq_some_iff.mp hresult
  have hcarried := h.tasks hi
  cases task with
  | dropped => cases hresult
  | live stance p =>
    cases p with
    | ask r next => cases hresult
    | done a =>
      cases hresult
      obtain ⟨work', hwork', hconcludes⟩ := hcarried
      cases hwork.symm.trans hwork'
      exact hconcludes hrefrains

theorem gone_run (hrun : Run System.LooseStep d.start trace s)
    (halone : ∀ seen e rest, trace = seen ++ e :: rest → ∀ slot, d.Cleared seen slot →
      ∀ i work, e.task? = some i → d.works[i]? = some work → Refrains d.key work) :
    d.Gone trace s ∨ Nonempty (d.LateCopy trace) := by
  induction hrun with
  | refl => exact .inl gone_start
  | @snoc trace s e t _ hs ih =>
    rcases ih fun seen x rest htrace => halone seen x (rest ++ [e]) (by simp [htrace]) with hgone | ⟨⟨copy⟩⟩
    · exact hgone.step hs (halone trace e [] rfl)
    · exact .inr ⟨copy.append⟩

namespace History

variable {before during after : List (Event ScriptedLoader)} {answer : Answer}

theorem refrains (h : d.History before during after s) {seen rest : List (Event ScriptedLoader)}
    (htrace : before ++ (during ++ after) = seen ++ e :: rest) (hcleared : d.Cleared seen slot)
    {work : Work} (he : e.task? = some i) (hwork : d.works[i]? = some work) : Refrains d.key work := by
  refine h.alone e ?_ i work he hwork
  obtain ⟨slot', -, x, hx, -⟩ := hcleared
  rcases List.append_eq_append_iff.mp htrace with ⟨more, rfl, hrest⟩ | ⟨more, hbefore, -⟩
  · rw [hrest]
    exact List.mem_append_right _ List.mem_cons_self
  · exact absurd rfl (h.begins _ (hbefore ▸ List.mem_append_left _ (mem_exchanges.mp hx)))

/-- When the delete has succeeded, all layers are cleared before the lookup begins. -/
theorem cleared (h : d.History before during after s) (hgone : d.Gone (before ++ (during ++ after)) s)
    {tier : Tier} (htier : tier ∈ d.stack.tiers) : d.Cleared (before ++ during) tier.slot := by
  have hconcludes := hgone.concludes d.deletes (.inr rfl) h.succeeds
  obtain ⟨x, hx, hshows⟩ := hconcludes.deleted rfl rfl tier htier
  refine ⟨tier.slot, rfl, x, mem_exchanges.mpr ?_, hshows⟩
  have hmem := mem_exchanges.mp hx
  rw [← List.append_assoc] at hmem
  exact (List.mem_append.mp hmem).resolve_right fun hafter => h.ends _ hafter rfl

theorem mem_after (h : d.History before during after s) {x : CacheExchange}
    (hx : x ∈ exchanges d.reader (before ++ (during ++ after))) : .acted d.reader x.1 x.2 ∈ after := by
  have hmem := mem_exchanges.mp hx
  rw [← List.append_assoc] at hmem
  exact (List.mem_append.mp hmem).resolve_left fun hearlier => h.follows _ hearlier rfl

end History

/-- A delete succeeds, and nobody gives the key a content from its beginning on. A lookup that starts
when the delete is over misses the key, or a layer fails to be read, or there has been a late copy: a
lookup that found the key in a layer ahead of the delete, and wrote it to one above behind the delete.
A cache that is turned off misses all keys. -/
theorem deleted_stays_deleted (d : Deletion) {before during after : List (Event ScriptedLoader)}
    {s : System (inUnreliablePlace ScriptedLoader) Answer} (h : d.History before during after s)
    {answer : Answer} (hanswer : s.tasks[d.reader]?.bind Task.result? = some answer) :
    (answer = .lookup .miss ∨
      (∃ tier ∈ d.stack.tiers, ∃ e, answer = .failed e ∧
        .acted d.reader (.layer tier.slot (.get d.full)) (.error e) ∈ after) ∨
      Nonempty (d.LateCopy (before ++ (during ++ after)))) ∧
    (Session.cacheWork .disabled (.get d.key)).Traced fun _ answer => answer = .lookup .miss := by
  refine ⟨?_, Proc.traced_pure rfl⟩
  rcases gone_run h.run fun seen e rest htrace slot hcleared i work => h.refrains htrace hcleared with
    hgone | hlate
  · have hconcludes := hgone.concludes d.reads (.inl trivial) hanswer
    obtain ⟨result, hlooked, rfl⟩ := hconcludes.read rfl
    cases hlooked with
    | miss => exact .inl rfl
    | failed htier hclue =>
      obtain ⟨x, hx, hshows⟩ := hclue
      cases hshows
      exact .inr (.inl ⟨_, htier, _, rfl, h.mem_after hx⟩)
    | found htier hclue =>
      -- all layers were cleared when the lookup began
      obtain ⟨x, hx, hshows⟩ := hclue
      obtain ⟨first, rest, hafter⟩ := List.append_of_mem (h.mem_after hx)
      cases hshows with
      | found hfetches =>
        have htrace : before ++ (during ++ after) =
            (before ++ during ++ first) ++ .acted d.reader x.1 x.2 :: rest := by simp [hafter]
        exact absurd (h.cleared hgone htier).append (hgone.timely htrace hfetches)
  · exact .inr (.inr hlate)

/-- Two lookups of a key with a delete between them, and at the beginning only the lower of two layers
has the key. -/
def overtaking : Deletion where
  stack := { oneMemory with tiers := [⟨0, "L1", true⟩, ⟨1, "L2", true⟩] }
  works := [.get "k", .delete "k", .get "k"]
  place :=
    { now := 0
      storage :=
        { backing := .memory
          memories := fun n =>
            { limit := 0, entries := .ofList (if n = 1 then [("k", ⟨Record.encode [7], none⟩)] else []) }
          stores := fun _ => { batched := false, rules := [] } } }
  key := "k"
  deleter := 1
  reader := 2
  deletes := rfl
  reads := rfl
  clock := by decide

def overtaken : List (Event ScriptedLoader) :=
  [.acted 0 (.layer 0 (.get "k")) (.ok none),
    .acted 0 (.layer 1 (.get "k")) (.ok (some ⟨Record.encode [7], none⟩)),
    .acted 0 (.notice (.hit "k" "L2")) (), .acted 0 (.count (.hit "L2")) (),
    .acted 1 (.layer 0 (.delete "k")) (.ok ()), .acted 1 (.layer 1 (.delete "k")) (.ok ()),
    .acted 0 (.layer 0 (.set "k" (Record.encode [7]) (.ofSeconds 60))) (.ok ()),
    .acted 0 (.notice (.backfilled "k" "L1")) ()]

def readBack : List (Event ScriptedLoader) :=
  [.acted 2 (.layer 0 (.get "k")) (.ok (some ⟨Record.encode [7], some (.ofSeconds 60)⟩)),
    .acted 2 (.notice (.hit "k" "L1")) (), .acted 2 (.count (.hit "L1")) ()]

theorem overtaking_run : ∃ s : System (inUnreliablePlace ScriptedLoader) Answer,
    overtaking.History [] overtaken readBack s ∧ (∀ task ∈ s.tasks, task.isOver = true) ∧
    s.tasks[overtaking.reader]?.bind Task.result? = some (.lookup (.hit [7])) := by
  have hstart : Run System.LooseStep overtaking.start [] _ := .refl
  have hovertaken := hstart
    |>.snoc (.act (i := 0) _ rfl rfl (.inl ⟨⟨none, rfl⟩, rfl⟩))
    |>.snoc (.act (i := 0) _ rfl rfl (.inl ⟨⟨none, rfl⟩, rfl⟩))
    |>.snoc (.act (i := 0) () rfl rfl rfl)
    |>.snoc (.act (i := 0) () rfl rfl rfl)
    |>.snoc (.act (i := 1) _ rfl rfl (.inl ⟨rfl, rfl⟩))
    |>.snoc (.act (i := 1) _ rfl rfl (.inl ⟨rfl, rfl⟩))
    |>.snoc (.act (i := 0) _ rfl rfl (.inl ⟨rfl, rfl⟩))
    |>.snoc (.act (i := 0) () rfl rfl rfl)
  have hrun := hovertaken
    |>.snoc (.act (i := 2) _ rfl rfl (.inl ⟨⟨some (.ofSeconds 60), rfl⟩, rfl⟩))
    |>.snoc (.act (i := 2) () rfl rfl rfl)
    |>.snoc (.act (i := 2) () rfl rfl rfl)
  refine ⟨_, ⟨hrun, List.forall_mem_nil _, ?_, rfl, fun e _ i work _ hwork => ?_, ?_⟩, ?_, ?_⟩
  · simp [readBack, overtaking, Event.task?]
  · have hmem : work ∈ [Work.get "k", .delete "k", .get "k"] := List.mem_of_getElem? hwork
    simp only [List.mem_cons, List.not_mem_nil, or_false] at hmem
    rcases hmem with rfl | rfl | rfl
    · exact .inl trivial
    · exact .inr rfl
    · exact .inl trivial
  · simp [overtaken, overtaking, Event.task?]
  · exact List.forall_mem_cons.mpr ⟨rfl, List.forall_mem_cons.mpr ⟨rfl, List.forall_mem_singleton.mpr rfl⟩⟩
  · rfl

theorem deleted_stays_deleted_overtaken :
    ∃ s : System (inUnreliablePlace ScriptedLoader) Answer,
      overtaking.History [] overtaken readBack s ∧
      s.tasks[overtaking.reader]?.bind Task.result? = some (.lookup (.hit [7])) ∧
      Nonempty (overtaking.LateCopy (overtaken ++ readBack)) := by
  obtain ⟨s, hhistory, -, hhit⟩ := overtaking_run
  refine ⟨s, hhistory, hhit, ?_⟩
  rcases (deleted_stays_deleted overtaking hhistory hhit).1 with hmiss | ⟨_, _, e, hfailed, _⟩ | hlate
  · cases hmiss
  · cases hfailed
  · exact hlate

/-- It is not enough that the other lookups are over as well. -/
theorem deleted_key_returns :
    ¬∀ (d : Deletion) (before during after : List (Event ScriptedLoader))
      (s : System (inUnreliablePlace ScriptedLoader) Answer) (answer : Answer),
      d.History before during after s → (∀ e ∈ after, e.task? = some d.reader) →
      (∀ task ∈ s.tasks, task.isOver = true) →
      s.tasks[d.reader]?.bind Task.result? = some answer → answer = .lookup .miss := by
  intro hmisses
  obtain ⟨s, hhistory, hover, hhit⟩ := overtaking_run
  have halone : ∀ e ∈ readBack, e.task? = some overtaking.reader := by
    simp [readBack, overtaking, Event.task?]
  cases hmisses overtaking [] overtaken readBack s _ hhistory halone hover hhit

end Deletion

end StackedCache.Concurrency
