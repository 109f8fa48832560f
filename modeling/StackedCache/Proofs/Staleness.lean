import StackedCache.Proofs.Visits

/-!
# Staleness

A value that is copied upwards starts a new life there with the default time to
live, so it can outlive the one it was written with, once for each layer that
it rises. An item in a layer is bounded by the write that it comes from and the
number of layers below it; marks that there is no value never rise.
-/

namespace StackedCache

open Simulation Concurrency

/-- The call has been given the content or has loaded it, and sends it to a layer with this time to
live, whatever comes of that. -/
def Visit.Writes (stack : Stack) (visit : Visit) (key : String) (content : Option Bytes)
    (ttl : Duration) : Prop :=
  Brought visit.told visit.work key content ∧
  ∃ (slot : Nat) (op : LayerOp) (reply : op.Reply), ⟨.layer slot op, reply⟩ ∈ visit.told ∧
    op.Puts (stack.fullKey key) (Record.payloadOf content) ttl

/-- The clock can show all deadlines that the call sets. -/
def Visit.Representable (visit : Visit) : Prop :=
  ∀ e ∈ visit.told, ∀ ttl ∈ e.1.ttl?, visit.now + ttl.nanos < Instant.horizon

instance (visit : Visit) : Decidable visit.Representable := by
  unfold Visit.Representable
  infer_instance

def Simulation.Work.Looks : Work → Prop
  | .get _ | .getValue _ | .mget _ => True
  | _ => False

/-- How much longer than its own time a content may stay in a layer with so many layers below it. -/
def Stack.grace (stack : Stack) (levels : Nat) : Option Bytes → Nat
  | some _ => levels * stack.settings.defaultTtl.nanos
  | none => 0

/-- The content has been written with a time to live that, with the grace, lasts to the deadline. -/
def Covered (stack : Stack) (visits : List Visit) (key : String) (content : Option Bytes)
    (levels : Nat) (deadline : Instant) : Prop :=
  ∃ visit ∈ visits, ∃ ttl, visit.Writes stack key content ttl ∧
    deadline ≤ visit.now + ttl.nanos + stack.grace levels content

/-- No layer above has its items at the same home. -/
def Topmost (storage : Storage) (above : List Tier) (tier : Tier) : Prop :=
  ∀ upper ∈ above, storage.home upper.slot ≠ storage.home tier.slot

/-- Each item expires in time, by the layers below the topmost one that holds it. -/
structure Bounded (stack : Stack) (visits : List Visit) (place : Concurrency.Place) : Prop where
  held {above below : List Tier} {tier : Tier} {key : String} {item : Item} {record : Record} :
    stack.tiers = above ++ tier :: below → Topmost place.storage above tier →
    place.storage.Holds tier.slot (stack.fullKey key) item →
    Record.decode item.payload = some record →
    ∃ deadline, item.deadline = some deadline ∧
      Covered stack visits key record.content below.length deadline

section
variable {stack : Stack} {visits more : List Visit} {key : String} {content : Option Bytes}
  {levels levels' : Nat} {deadline deadline' : Instant}

theorem Stack.grace_mono (h : levels ≤ levels') : stack.grace levels content ≤ stack.grace levels' content := by
  cases content with
  | none => exact Nat.le_refl _
  | some value => exact Nat.mul_le_mul_right _ h

theorem Covered.mono (h : Covered stack visits key content levels deadline) (hlevels : levels ≤ levels')
    (hdeadline : deadline' ≤ deadline) : Covered stack visits key content levels' deadline' := by
  obtain ⟨visit, hvisit, ttl, hwrites, hle⟩ := h
  refine ⟨visit, hvisit, ttl, hwrites, hdeadline.trans (hle.trans ?_)⟩
  exact Nat.add_le_add_left (Stack.grace_mono hlevels) _

theorem Covered.later (h : Covered stack visits key content levels deadline) :
    Covered stack (visits ++ more) key content levels deadline := by
  obtain ⟨visit, hvisit, hcovers⟩ := h
  exact ⟨visit, List.mem_append_left _ hvisit, hcovers⟩

theorem Covered.rise {value : Bytes} {now : Instant}
    (h : Covered stack visits key (some value) levels deadline) (hnow : now ≤ deadline)
    (hlevels : levels < levels') : Covered stack visits key (some value) levels'
      (now + stack.settings.defaultTtl.nanos) := by
  obtain ⟨visit, hvisit, ttl, hwrites, hle⟩ := h
  refine ⟨visit, hvisit, ttl, hwrites, ?_⟩
  calc now + stack.settings.defaultTtl.nanos
      ≤ deadline + stack.settings.defaultTtl.nanos := Nat.add_le_add_right hnow _
    _ ≤ visit.now + ttl.nanos + stack.grace levels (some value) + stack.settings.defaultTtl.nanos :=
      Nat.add_le_add_right hle _
    _ = visit.now + ttl.nanos + stack.grace (levels + 1) (some value) := by
      simp only [Stack.grace, Nat.succ_mul, Nat.add_assoc]
    _ ≤ visit.now + ttl.nanos + stack.grace levels' (some value) :=
      Nat.add_le_add_left (Stack.grace_mono hlevels) _

end

-- ---------------------------------------------------------------------------
-- Places among the layers
-- ---------------------------------------------------------------------------

section
variable {storage : Storage} {tiers above above' below below' : List Tier} {tier tier' lower : Tier}

theorem exists_topmost (storage : Storage) (h : tier ∈ tiers) :
    ∃ above first below, tiers = above ++ first :: below ∧
      storage.home first.slot = storage.home tier.slot ∧ Topmost storage above first := by
  have hsome : (tiers.find? fun t => storage.home t.slot = storage.home tier.slot).isSome := by
    simp only [List.find?_isSome, decide_eq_true_eq]
    exact ⟨tier, h, rfl⟩
  obtain ⟨first, hfirst⟩ := Option.isSome_iff_exists.mp hsome
  obtain ⟨hhome, above, below, htiers, habove⟩ := List.find?_eq_some_iff_append.mp hfirst
  simp only [decide_eq_true_eq] at hhome
  refine ⟨above, first, below, htiers, hhome, fun upper hupper heq => ?_⟩
  simpa [heq.trans hhome] using habove upper hupper

theorem below_lt (h : tiers = above ++ lower :: below) (h' : tiers = above' ++ tier' :: below')
    (htier : tier ∈ above) (htop : Topmost storage above' tier')
    (hhome : storage.home tier'.slot = storage.home tier.slot) : below.length < below'.length := by
  have hnot : tier ∉ above' := fun hmem => htop tier hmem hhome.symm
  have hlength : above.length + below.length = above'.length + below'.length := by
    have hsame := congrArg List.length (h.symm.trans h')
    simp only [List.length_append, List.length_cons] at hsame
    omega
  refine Nat.lt_of_not_le fun hle => hnot ?_
  have hprefix : above <+: above' :=
    List.prefix_of_prefix_length_le ⟨_, h.symm⟩ ⟨_, h'.symm⟩ (by omega)
  exact hprefix.mem htier

end

-- ---------------------------------------------------------------------------
-- What is seen
-- ---------------------------------------------------------------------------

section
variable {stack : Stack} {visits : List Visit} {visit : Visit} {place mid after : Concurrency.Place}
  {key : String} {payload : Bytes} {record : Record} {above below above' below' : List Tier}
  {tier lower : Tier} {ttl : Duration}

theorem Topmost.of_home (h : Topmost place.storage above tier)
    (hhome : ∀ slot, after.storage.home slot = place.storage.home slot) :
    Topmost after.storage above tier := by
  intro upper hupper
  rw [hhome, hhome]
  exact h upper hupper

theorem shown_home {slot slot' : Nat} (h : place.storage.home slot = place.storage.home slot')
    (key : String) : place.shown slot key = place.shown slot' key := by
  unfold Concurrency.Place.shown
  rw [Storage.items_home h]

theorem Bounded.topmost (h : Bounded stack visits place) (htiers : stack.tiers = above ++ tier :: below)
    (htop : Topmost place.storage above tier)
    (hshown : place.shown tier.slot (stack.fullKey key) = some payload)
    (hdecode : Record.decode payload = some record) :
    ∃ deadline, place.now < deadline ∧
      Covered stack visits key record.content below.length deadline := by
  obtain ⟨item, hitem, rfl, hlive⟩ := visible_held hshown
  obtain ⟨deadline, hdeadline, hcovered⟩ := h.held htiers htop hitem hdecode
  exact ⟨deadline, hlive deadline hdeadline, hcovered⟩

theorem Bounded.shown (h : Bounded stack visits place) (htier : tier ∈ stack.tiers)
    (hshown : place.shown tier.slot (stack.fullKey key) = some payload)
    (hdecode : Record.decode payload = some record) :
    ∃ deadline, place.now < deadline ∧
      Covered stack visits key record.content (stack.tiers.length - 1) deadline := by
  obtain ⟨above, first, below, htiers, hhome, htop⟩ := exists_topmost place.storage htier
  rw [← shown_home hhome] at hshown
  obtain ⟨deadline, hlive, hcovered⟩ := h.topmost htiers htop hshown hdecode
  refine ⟨deadline, hlive, hcovered.mono ?_ (Nat.le_refl _)⟩
  simp only [htiers, List.length_append, List.length_cons]
  omega

/-- A value that is seen where the layers above have none is at its topmost layer. -/
theorem topmost_of_positive {value : Option Bytes}
    (hshown : place.shown lower.slot key = some payload)
    (hdecode : Record.decode payload = some (.positive value))
    (hnone : ∀ tier ∈ above, ∀ value,
      (place.shown tier.slot key).bind Record.decode ≠ some (.positive value)) :
    Topmost place.storage above lower := by
  intro upper hupper hhome
  refine hnone upper hupper value ?_
  rw [shown_home hhome, hshown]
  exact hdecode

-- ---------------------------------------------------------------------------
-- What is written
-- ---------------------------------------------------------------------------

variable {seen : List CacheExchange} {slot : Nat}

theorem Justified.lasting {work : Work} (h : Justified stack seen work slot key payload ttl)
    (hstack : stack.Usable) : ttl.isZero = false := by
  cases h with
  | brought _ hlasting => exact hlasting hstack
  | copied _ _ _ => exact hstack.lasting

theorem Bounded.justified (h : Bounded stack visits place) (hclock : place.now < Instant.horizon)
    (hnow : visit.now = place.now) (hseen : place.Undergoes seen mid) (hle : seen <+: visit.told)
    {op : LayerOp} {reply : op.Reply} (hexchange : ⟨.layer slot op, reply⟩ ∈ visit.told)
    (hputs : op.Puts (stack.fullKey key) payload ttl)
    (hj : Justified stack seen visit.work slot (stack.fullKey key) payload ttl)
    (htiers : stack.tiers = above ++ tier :: below) (htop : Topmost place.storage above tier)
    (hhome : place.storage.home tier.slot = place.storage.home slot)
    (hdecode : Record.decode payload = some record) :
    Covered stack (visits ++ [visit]) key record.content below.length (place.now + ttl.nanos) := by
  generalize hfull : stack.fullKey key = full at hj
  cases hj with
  | brought hbrought _ =>
    obtain rfl := Stack.fullKey_inj.mp hfull
    have hwrites := Record.content_of_payloadOf hdecode
    refine ⟨visit, by simp, ttl, ⟨?_, slot, op, reply, hexchange, ?_⟩, ?_⟩
    · exact hwrites ▸ hbrought.later hle
    · exact hwrites ▸ hputs
    · exact hnow ▸ Nat.le_add_right ..
  | @copied upper above' _ _ value hsighted hupper hpositive =>
    subst hfull
    cases hpositive.symm.trans hdecode
    obtain ⟨lower, below', htiers', hshown, hnone⟩ := hseen.sighted hclock hsighted
    have hlower : Topmost place.storage above' lower := topmost_of_positive hshown hdecode hnone
    obtain ⟨deadline, hlive, hcovered⟩ := h.topmost htiers' hlower hshown hdecode
    exact (hcovered.later).rise (Nat.le_of_lt hlive) (below_lt htiers' htiers hupper htop hhome)

theorem Bounded.exchange (hstack : stack.Usable) (h : Bounded stack visits place)
    (hmid : Bounded stack (visits ++ [visit]) mid) (hclock : place.now < Instant.horizon)
    (hnow : visit.now = place.now) (hrep : visit.Representable) (hseen : place.Undergoes seen mid)
    {r : CacheRequest ScriptedLoader} {reply : r.Reply} {rest : List CacheExchange}
    (htold : visit.told = seen ++ ⟨r, reply⟩ :: rest) (hr : Accountable stack seen visit.work r)
    (ha : mid.tolerates r reply after) : Bounded stack (visits ++ [visit]) after := by
  have hhome (slot : Nat) : after.storage.home slot = mid.storage.home slot :=
    Concurrency.Place.tolerates_home ha slot
  constructor
  intro above below tier key item record htiers htop hitem hdecode
  rcases Concurrency.Place.tolerates_holds ha hitem with
    hbefore | ⟨slot, op, payload, ttl, rfl, hsame, hputs, hmakes⟩
  · exact hmid.held htiers (htop.of_home fun slot => (hhome slot).symm) hbefore hdecode
  · have hexchange : ⟨.layer slot op, reply⟩ ∈ visit.told := htold ▸ by simp
    have hj : Justified stack seen visit.work slot (stack.fullKey key) payload ttl := by
      cases hputs with
      | set => exact hr
      | mset hmem => exact hr _ _ hmem
    rw [hmakes.payload_eq] at hdecode
    rw [hseen.now_eq] at hmakes
    refine ⟨_, hmakes.deadline_eq (hj.lasting hstack) ?_, ?_⟩
    · exact hnow ▸ hrep _ hexchange ttl (hputs.ttl_eq slot)
    · refine h.justified hclock hnow hseen (htold ▸ List.prefix_append ..) hexchange hputs hj htiers
        (htop.of_home fun slot => ?_) ?_ hdecode
      · rw [hhome, hseen.home_eq]
      · rwa [hseen.home_eq, hseen.home_eq] at hsame

theorem Bounded.call (hstack : stack.Usable) (h : Bounded stack visits place)
    (hclock : place.now < Instant.horizon) (hnow : visit.now = place.now)
    (hrep : visit.Representable) (htold : place.Undergoes visit.told after)
    (hends : (Session.cacheWork (.stacked stack) visit.work).Ends visit.told visit.answer) :
    Bounded stack (visits ++ [visit]) after := by
  obtain ⟨haccounted, -⟩ := htold.accounted (accounts_work stack visit.work) hends
  have hgo {rest seen : List CacheExchange} {mid : Concurrency.Place}
      (heq : visit.told = seen ++ rest) (hseen : place.Undergoes seen mid)
      (hrest : mid.Undergoes rest after) (hmid : Bounded stack (visits ++ [visit]) mid) :
      Bounded stack (visits ++ [visit]) after := by
    induction rest generalizing seen mid with
    | nil =>
      cases hrest
      exact hmid
    | cons e rest ih =>
      cases hrest with
      | cons ha hrest =>
        refine ih (by simpa using heq) (hseen.snoc ha) hrest ?_
        exact h.exchange hstack hmid hclock hnow hrep hseen heq (haccounted heq) ha
  refine hgo (List.nil_append _).symm .nil htold ⟨fun htiers htop hitem hdecode => ?_⟩
  obtain ⟨deadline, hdeadline, hcovered⟩ := h.held htiers htop hitem hdecode
  exact ⟨deadline, hdeadline, hcovered.later⟩

theorem Bounded.stray (h : Bounded stack visits place) (hs : place.strays after) :
    Bounded stack visits after := by
  constructor
  intro above below tier key item record htiers htop hitem hdecode
  refine h.held htiers (htop.of_home fun slot => ?_) (Concurrency.Place.strays_holds hs hitem) hdecode
  exact (Concurrency.Place.strays_home hs slot).symm

theorem Bounded.answered (h : Bounded stack visits place) (hclock : place.now < Instant.horizon)
    (htold : place.Undergoes visit.told after)
    (hends : (Session.cacheWork (.stacked stack) visit.work).Ends visit.told visit.answer)
    (hlooks : visit.work.Looks) {content : Option Bytes}
    (htells : Tells visit.work visit.answer key content) :
    ∃ deadline, place.now < deadline ∧
      Covered stack visits key content (stack.tiers.length - 1) deadline := by
  obtain ⟨-, stance, -, hobtained⟩ := htold.accounted (accounts_work stack visit.work) hends
  cases hobtained key content htells with
  | sighted hsighted hdecode =>
    obtain ⟨lower, below, htiers, hshown, -⟩ := htold.sighted hclock hsighted
    exact h.shown (by simp [htiers]) hshown hdecode
  | shared hwork _ _ =>
    rw [hwork] at hlooks
    exact hlooks.elim
  | learned _ hlearned =>
    generalize visit.work = work at hlearned hlooks
    cases hlearned <;> exact hlooks.elim

end

-- ---------------------------------------------------------------------------
-- Courses
-- ---------------------------------------------------------------------------

section
variable {stack : Stack} {visits before : List Visit} {visit : Visit}
  {start after : Concurrency.Place}

theorem Course.visited (h : Course stack start visits after) (hvisit : before ++ [visit] <+: visits) :
    ∃ place left, Course stack start before place ∧ visit.now = place.now ∧
      place.Undergoes visit.told left ∧
      (Session.cacheWork (.stacked stack) visit.work).Ends visit.told visit.answer := by
  induction h with
  | start => simp at hvisit
  | stray _ _ ih => exact ih hvisit
  | @call visits place left work told answer h hends htold ih =>
    rcases List.prefix_concat_iff.mp hvisit with heq | hvisit
    · obtain ⟨rfl, hlast⟩ := List.append_inj' heq rfl
      cases hlast
      exact ⟨place, left, h, rfl, htold, hends⟩
    · exact ih hvisit

theorem Course.bounded (h : Course stack start visits after) (hstack : stack.Usable)
    (hclock : start.now < Instant.horizon)
    (hempty : ∀ tier ∈ stack.tiers, ∀ key item,
      ¬start.storage.Holds tier.slot (stack.fullKey key) item)
    (hrep : ∀ visit ∈ visits, visit.Representable) :
    after.now < Instant.horizon ∧ (∀ visit ∈ visits, visit.now ≤ after.now) ∧
      Bounded stack visits after := by
  induction h with
  | start =>
    refine ⟨hclock, List.forall_mem_nil _, ⟨fun htiers _ hitem _ => ?_⟩⟩
    exact absurd hitem (hempty _ (by simp [htiers]) _ _)
  | @call visits place after work told answer _ hends htold ih =>
    obtain ⟨hpast, hlast⟩ := List.forall_mem_append.mp hrep
    obtain ⟨hclock, hnow, hbounded⟩ := ih hpast
    have hsame : after.now = place.now := htold.now_eq
    have hcalled : Bounded stack (visits ++ [⟨place.now, work, told, answer⟩]) after :=
      hbounded.call hstack hclock rfl (hlast _ List.mem_cons_self) htold hends
    rw [hsame]
    refine ⟨hclock, List.forall_mem_append.mpr ⟨hnow, fun visit hvisit => ?_⟩, hcalled⟩
    exact List.mem_singleton.mp hvisit ▸ Nat.le_refl _
  | stray _ hs ih =>
    obtain ⟨hclock, hnow, hbounded⟩ := ih hrep
    obtain ⟨hle, hlater⟩ := Concurrency.Place.strays_clock hs hclock
    exact ⟨hlater, fun visit hvisit => (hnow visit hvisit).trans hle, hbounded.stray hs⟩

end

/-- Calls come one after the other to a cache whose layers are empty at the beginning. What a lookup
tells of a key was written by an earlier call with a time to live that, for a value, one default
time to live for each layer but one may have extended; and a layer holds no item beyond what the
layers below it allow. -/
theorem staleness_bounded {config : CacheConfig} {layers : List (String × Bool)} {stack : Stack}
    (hbuild : Stack.build config layers = .ok stack) (hdefault : config.defaultTtlMs ≠ 0)
    {start after : Concurrency.Place} (hclock : start.now < Instant.horizon)
    (hempty : ∀ tier ∈ stack.tiers, ∀ key item,
      ¬start.storage.Holds tier.slot (stack.fullKey key) item)
    {visits : List Visit} (hcourse : Course stack start visits after)
    (hrep : ∀ visit ∈ visits, visit.Representable) :
    (∀ before visit key content, before ++ [visit] <+: visits → visit.work.Looks →
      Tells visit.work visit.answer key content → ∃ write ∈ before, ∃ ttl,
        write.Writes stack key content ttl ∧ write.now ≤ visit.now ∧
        visit.now < write.now + ttl.nanos + stack.grace (stack.tiers.length - 1) content) ∧
    (∀ above tier below key item record, stack.tiers = above ++ tier :: below →
      Topmost after.storage above tier → after.storage.Holds tier.slot (stack.fullKey key) item →
      Record.decode item.payload = some record → ∃ write ∈ visits, ∃ ttl deadline,
        write.Writes stack key record.content ttl ∧ item.deadline = some deadline ∧
        deadline ≤ write.now + ttl.nanos + stack.grace below.length record.content) := by
  obtain ⟨hstack, -⟩ := Stack.build_usable hbuild hdefault
  constructor
  · intro before visit key content hvisit hlooks htells
    obtain ⟨place, left, hbefore, hnow, htold, hends⟩ := hcourse.visited hvisit
    have hrepBefore : ∀ write ∈ before, write.Representable :=
      fun write hwrite => hrep write (hvisit.mem (List.mem_append_left _ hwrite))
    obtain ⟨hclock, hpast, hbounded⟩ := hbefore.bounded hstack hclock hempty hrepBefore
    obtain ⟨deadline, hlive, write, hwrite, ttl, hwrites, hle⟩ :=
      hbounded.answered hclock htold hends hlooks htells
    rw [hnow]
    exact ⟨write, hwrite, ttl, hwrites, hpast write hwrite, Nat.lt_of_lt_of_le hlive hle⟩
  · intro above tier below key item record htiers htop hitem hdecode
    obtain ⟨-, -, hbounded⟩ := hcourse.bounded hstack hclock hempty hrep
    obtain ⟨deadline, hdeadline, write, hwrite, ttl, hwrites, hle⟩ :=
      hbounded.held htiers htop hitem hdecode
    exact ⟨write, hwrite, ttl, deadline, hwrites, hdeadline, hle⟩

-- ---------------------------------------------------------------------------
-- A value that outlives its time to live
-- ---------------------------------------------------------------------------

def unjittered : CacheConfig := { jitter := ⟨0⟩ }

def twoLayers : Stack := ⟨unjittered.settings, [⟨0, "near", true⟩, ⟨1, "far", true⟩]⟩

def twoMemories : Concurrency.Place where
  now := 0
  storage :=
    { backing := .memory
      memories := fun _ => { limit := 0 }
      stores := fun _ => { batched := false, rules := [] } }

def writing : Visit where
  now := 0
  work := .set "k" [7] (.ofSeconds 2)
  told := [⟨.layer 0 (.set "k" (Record.encode [7]) (.ofSeconds 2)), .ok ()⟩,
    ⟨.layer 1 (.set "k" (Record.encode [7]) (.ofSeconds 2)), .ok ()⟩]
  answer := .done

def promoting : Visit where
  now := 10 ^ 9
  work := .get "k"
  told := [⟨.layer 0 (.get "k"), .ok none⟩,
    ⟨.layer 1 (.get "k"), .ok (some ⟨Record.encode [7], none⟩)⟩,
    ⟨.notice (.hit "k" "far"), ()⟩, ⟨.count (.hit "far"), ()⟩,
    ⟨.layer 0 (.set "k" (Record.encode [7]) unjittered.defaultTtl), .ok ()⟩,
    ⟨.notice (.backfilled "k" "near"), ()⟩]
  answer := .lookup (.hit [7])

def stale : Visit where
  now := 3 * 10 ^ 9
  work := .get "k"
  told := [⟨.layer 0 (.get "k"), .ok (some ⟨Record.encode [7], none⟩)⟩,
    ⟨.notice (.hit "k" "near"), ()⟩, ⟨.count (.hit "near"), ()⟩]
  answer := .lookup (.hit [7])

theorem staleness_bounded_promoted :
    Stack.build unjittered [("near", true), ("far", true)] = .ok twoLayers ∧
    ∃ after, Course twoLayers twoMemories [writing, promoting, stale] after ∧
      ∃ write ∈ [writing, promoting], ∃ ttl, write.Writes twoLayers "k" (some [7]) ttl ∧
        write.now ≤ stale.now ∧
        stale.now < write.now + ttl.nanos + twoLayers.settings.defaultTtl.nanos := by
  have hunit : (⟨0⟩ : Binary64).inUnitInterval = true := by decide +kernel
  have hspread : Jitter.spread? ⟨0⟩ = none := by decide +kernel
  have hbuild : Stack.build unjittered [("near", true), ("far", true)] = .ok twoLayers := by
    simp [Stack.build, unjittered, twoLayers, hunit]
  have hwriting : (Session.cacheWork (.stacked twoLayers) writing.work).Ends writing.told writing.answer := by
    simp only [writing, Session.cacheWork, Cache.set, Stack.set, Stack.jittered, twoLayers, unjittered,
      CacheConfig.settings, hspread]
    exact .ask (.ask (.done _))
  have hpromoting :
      (Session.cacheWork (.stacked twoLayers) promoting.work).Ends promoting.told promoting.answer :=
    .ask (.ask (.ask (.ask (.ask (.ask (.done _))))))
  have hstale : (Session.cacheWork (.stacked twoLayers) stale.work).Ends stale.told stale.answer :=
    .ask (.ask (.ask (.done _)))
  have hstart : Course twoLayers twoMemories [] twoMemories := .start
  have hwritten := hstart.call hwriting (.cons (.inl ⟨rfl, rfl⟩) (.cons (.inl ⟨rfl, rfl⟩) .nil))
  have hcleared := (hwritten.clear 0).pass (10 ^ 9) (by decide)
  have hpromoted := hcleared.call hpromoting (.cons (.inl ⟨⟨none, rfl⟩, rfl⟩)
    (.cons (.inl ⟨⟨none, rfl⟩, rfl⟩) (.cons rfl (.cons rfl
      (.cons (.inl ⟨rfl, rfl⟩) (.cons rfl .nil))))))
  have hcourse := (hpromoted.pass (2 * 10 ^ 9) (by decide)).call hstale
    (.cons (.inl ⟨⟨none, rfl⟩, rfl⟩) (.cons rfl (.cons rfl .nil)))
  have hempty : ∀ tier ∈ twoLayers.tiers, ∀ key item,
      ¬twoMemories.storage.Holds tier.slot (twoLayers.fullKey key) item := by
    rintro tier - key item ⟨⟩
  have hrep : ∀ visit ∈ [writing, promoting, stale], visit.Representable := by decide
  obtain ⟨hlookups, -⟩ := staleness_bounded hbuild (by decide) (by decide) hempty hcourse hrep
  obtain ⟨write, hwrite, ttl, hwrites, hle, hlt⟩ :=
    hlookups [writing, promoting] stale "k" (some [7]) (List.prefix_refl _) trivial .hit
  refine ⟨hbuild, _, hcourse, write, hwrite, ttl, hwrites, hle, ?_⟩
  simpa [Stack.grace, twoLayers] using hlt

end StackedCache
