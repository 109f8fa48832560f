import StackedCache.Proofs.Concurrency.Stages

/-!
# Lookups and writes while others act

The operations on single keys keep the discipline of a shared key, whatever
other tasks do between their requests. A lookup of the key finds what was
loaded, or nothing; to who leads the key's flight, nothing means that nobody
has loaded it.
-/

namespace StackedCache.Concurrency

open CacheProc Outlook

variable {Loader α β : Type} {stack : Stack} {key k : String} {caller : Prop} {now mid : Outlook}

/-- The program keeps the discipline of the key, does not bring it forward, and ends with
what meets `post`. -/
def Minds (stack : Stack) (key : String) (caller : Prop) (now : Outlook) (p : CacheProc Loader α)
    (post : Outlook → α → Prop) : Prop :=
  p.Keeps (minding stack key caller) (fun later a => now.Later key later ∧ post later a) now

section
variable {p : CacheProc Loader α} {f : α → CacheProc Loader β} {post : Outlook → α → Prop}
  {next : Outlook → β → Prop}

theorem minds_pure {a : α} (h : post now a) :
    Minds stack key caller now (pure a : CacheProc Loader α) post :=
  ⟨.refl key now, h⟩

theorem Minds.andThen {post' : Outlook → β → Prop} (h : Minds stack key caller now p post)
    (hf : ∀ mid a, now.Later key mid → post mid a →
      (f a).Keeps (minding stack key caller) post' mid) :
    (p >>= f).Keeps (minding stack key caller) post' now :=
  Proc.Keeps.bind h fun mid a ⟨hmid, ha⟩ => hf mid a hmid ha

theorem Minds.bind (h : Minds stack key caller now p post)
    (hf : ∀ mid a, now.Later key mid → post mid a → Minds stack key caller mid (f a) next) :
    Minds stack key caller now (p >>= f) next := by
  refine h.andThen fun mid a hmid ha => ?_
  exact Proc.Keeps.mono (hf mid a hmid ha) fun _ _ h => ⟨hmid.trans h.1, h.2⟩

end

-- ---------------------------------------------------------------------------
-- Single requests
-- ---------------------------------------------------------------------------

theorem permits_free {r : CacheRequest Loader} (hr : r.onFlight = false) (hfree : now.Free) :
    flightProtocol.permits now.stance r :=
  (permits_own hr).mpr hfree

theorem minds_notice (hfree : now.Free) (n : Notice) :
    Minds stack key caller now (notice n : CacheProc Loader Unit) fun _ _ => True :=
  ⟨⟨permits_free rfl hfree, trivial⟩, fun _ _ ha => ⟨ha, trivial⟩⟩

theorem minds_count (hfree : now.Free) (c : Count) :
    Minds stack key caller now (count c : CacheProc Loader Unit) fun _ _ => True :=
  ⟨⟨permits_free rfl hfree, trivial⟩, fun _ _ ha => ⟨ha, trivial⟩⟩

theorem minds_jittered (hfree : now.Free) (ttl : Duration) :
    Minds stack key caller now (stack.jittered ttl : CacheProc Loader Duration) fun _ _ => True := by
  unfold Stack.jittered
  cases Jitter.spread? stack.settings.jitter with
  | none => exact minds_pure trivial
  | some spread => exact ⟨⟨permits_free rfl hfree, trivial⟩, fun _ _ ha => ⟨ha, trivial⟩⟩

theorem minds_getFrom (hfree : now.Free) {tier : Tier} (htier : tier ∈ stack.tiers) :
    Minds stack key caller now (getFrom tier k : CacheProc Loader _) fun later result =>
      ∃ found, result = .ok found ∧
        (k = key → Seen stack later.stage tier.slot (found.map Entry.payload)) := by
  refine ⟨⟨permits_free rfl hfree, trivial⟩, ?_⟩
  rintro reply later ⟨hlater, found, rfl, hseen⟩
  exact ⟨hlater, found, rfl, fun hk => hseen hk ⟨tier, htier, rfl⟩⟩

theorem minds_setIn (hfree : now.Free) (tier : Tier) {payload : Bytes} (ttl : Duration)
    (hholds : k = key → now.stage.Holds payload)
    (hlead : k = key → now.Leads key → ∃ finding, now.stage = .settled finding) :
    Minds stack key caller now (setIn tier k payload ttl : CacheProc Loader _)
      fun _ result => result = .ok () := by
  refine ⟨⟨permits_free rfl hfree, hholds⟩, ?_⟩
  rintro reply later ⟨rfl, hsettles, hlater⟩
  refine ⟨?_, rfl⟩
  by_cases h : now.Leads key ∧ k = key ∧ stack.lowest? = some tier.slot
  · obtain ⟨hstance, hstage⟩ := hsettles h.1 h.2.1 h.2.2
    obtain ⟨finding, hfinding⟩ := hlead h.2.1 h.1
    rw [hfinding] at hstage
    have hsame : later.stage = now.stage := hstage.trans hfinding.symm
    exact ⟨hstance, hsame ▸ Stage.le_refl _, fun _ => hsame⟩
  · exact hlater h

theorem minds_deleteIn (hfree : now.Free) (tier : Tier) (hk : k ≠ key) :
    Minds stack key caller now (deleteIn tier k : CacheProc Loader _) fun _ result => result = .ok () :=
  ⟨⟨permits_free rfl hfree, hk⟩, fun _ _ ha => ⟨ha.2, ha.1⟩⟩

-- ---------------------------------------------------------------------------
-- Lookups
-- ---------------------------------------------------------------------------

theorem minds_backfill (hfree : now.Free) {payload : Bytes}
    (hholds : k = key → now.stage.Holds payload)
    (hlead : k = key → now.Leads key → ∃ finding, now.stage = .settled finding) (tiers : List Tier) :
    Minds stack key caller now (stack.backfill k payload tiers : CacheProc Loader Unit)
      fun _ _ => True := by
  induction tiers generalizing now with
  | nil => exact minds_pure trivial
  | cons tier rest ih =>
    refine (minds_setIn hfree tier _ hholds hlead).bind ?_
    rintro mid result hmid rfl
    refine (minds_notice (hmid.free hfree) _).bind fun late _ hlate _ => ?_
    have hlater := hmid.trans hlate
    refine ih (hlater.free hfree) (fun hk => (hholds hk).later hlater.stage) fun hk hl => ?_
    obtain ⟨finding, hfinding⟩ := hlead hk (hlater.leads.mp hl)
    exact ⟨finding, Stage.settled_le (hfinding ▸ hlater.stage)⟩

def Finds (key : String) (later : Outlook) (found : Lookup) : Prop :=
  (∃ finding : Finding, later.stage.finding? = some finding ∧ found = finding.lookup) ∨
  found = .miss ∧ (later.Leads key → later.stage = .untouched)

theorem minds_readFrom (hfree : now.Free) {below : List Tier} (hbelow : below <:+ stack.tiers)
    (hlead : k = key → now.Leads key → ∀ finding, now.stage ≠ .loaded finding)
    (hpassed : below = [] → k = key → now.Leads key → now.stage = .untouched) (above : List Tier) :
    Minds stack key caller now (stack.readFrom k above below : CacheProc Loader _)
      fun later result => ∃ found, result = .ok found ∧ (k = key → Finds key later found) := by
  induction below generalizing now above with
  | nil =>
    refine (minds_notice hfree _).bind fun mid _ hmid _ => ?_
    refine (minds_count (hmid.free hfree) _).bind fun late _ hlate _ => ?_
    have hlater := hmid.trans hlate
    refine minds_pure ⟨.miss, rfl, fun hk => .inr ⟨rfl, fun hl => ?_⟩⟩
    have hleads := hlater.leads.mp hl
    exact (hlater.sole hleads).trans (hpassed rfl hk hleads)
  | cons tier below ih =>
    have hrest : below <:+ stack.tiers := (List.suffix_cons tier below).trans hbelow
    refine (minds_getFrom hfree (hbelow.mem List.mem_cons_self)).bind ?_
    rintro mid result hmid ⟨found, rfl, hseen⟩
    have hfree := hmid.free hfree
    have hlead (hk : k = key) (hl : mid.Leads key) (finding : Finding) :
        mid.stage ≠ .loaded finding := by
      rw [hmid.sole (hmid.leads.mp hl)]
      exact hlead hk (hmid.leads.mp hl) finding
    cases found with
    | none =>
      refine ih hfree hrest hlead (fun hnil hk hl => ?_) (above ++ [tier])
      -- the last layer has nothing
      subst hnil
      exact (hseen hk).untouched (Stack.lowest_of_suffix hbelow) (hlead hk hl)
    | some entry =>
      have hholds (hk : k = key) : mid.stage.Holds entry.payload := (hseen hk).only rfl
      cases hdecode : Record.decode entry.payload with
      | none =>
        have hother : k ≠ key := by
          intro hk
          obtain ⟨finding, -, hrecord⟩ := (hholds hk).decode
          rw [hdecode] at hrecord
          cases hrecord
        simp only [hdecode]
        refine (minds_notice hfree _).bind fun late _ hlate _ => ?_
        exact ih (hlate.free hfree) hrest (fun hk => absurd hk hother)
          (fun _ hk => absurd hk hother) (above ++ [tier])
      | some record =>
        simp only [hdecode]
        cases record with
        | negative =>
          refine (minds_notice hfree _).bind fun late _ hlate _ => ?_
          refine (minds_count (hlate.free hfree) _).bind fun last _ hlast _ => minds_pure ?_
          refine ⟨.negative, rfl, fun hk => ?_⟩
          obtain ⟨finding, hfinding, hrecord⟩ := (hholds hk).read hdecode (hlate.trans hlast).stage
          exact .inl ⟨finding, hfinding, (Finding.lookup_negative hrecord).symm⟩
        | positive value =>
          refine (minds_notice hfree _).bind fun late _ hlate _ => ?_
          refine (minds_count (hlate.free hfree) _).bind fun late' _ hlate' _ => ?_
          have hlater := hlate.trans hlate'
          -- who leads copies only what has been settled
          have hsettled (hk : k = key) (hl : late'.Leads key) :
              ∃ finding, late'.stage = .settled finding := by
            have hleads := hlater.leads.mp hl
            rw [hlater.sole hleads]
            exact (hholds hk).settled (hlead hk hleads)
          refine (minds_backfill (hlater.free hfree) (fun hk => (hholds hk).later hlater.stage)
            hsettled above).bind fun last _ hlast _ => minds_pure ⟨_, rfl, fun hk => ?_⟩
          obtain ⟨finding, hfinding, hrecord⟩ := (hholds hk).read hdecode (hlater.trans hlast).stage
          exact .inl ⟨finding, hfinding, (Finding.lookup_positive hrecord).symm⟩

theorem minds_get (hfree : now.Free) (htiers : stack.tiers ≠ [])
    (hlead : stack.fullKey k = key → now.Leads key → ∀ finding, now.stage ≠ .loaded finding) :
    Minds stack key caller now (stack.get k : CacheProc Loader _) fun later result =>
      ∃ found, result = .ok found ∧ (stack.fullKey k = key → Finds key later found) :=
  minds_readFrom hfree List.suffix_rfl hlead (fun hnil => absurd hnil htiers) []

-- ---------------------------------------------------------------------------
-- Writes under other keys
-- ---------------------------------------------------------------------------

theorem minds_writeEach (hfree : now.Free) (hk : k ≠ key) (payload : Bytes) (ttl : Duration)
    (tiers : List Tier) :
    Minds stack key caller now (Stack.writeEach k payload ttl (.ok ()) tiers : CacheProc Loader _)
      fun _ result => result = .ok () := by
  induction tiers generalizing now with
  | nil => exact minds_pure rfl
  | cons tier rest ih =>
    refine (minds_setIn hfree tier ttl (fun h => absurd h hk) fun h => absurd h hk).bind ?_
    rintro mid result hmid rfl
    exact ih (hmid.free hfree)

theorem minds_set (hfree : now.Free) (hk : stack.fullKey k ≠ key) (value : Bytes) (ttl : Duration) :
    Minds stack key caller now (stack.set k value ttl : CacheProc Loader _)
      fun _ result => result = .ok () :=
  (minds_jittered hfree _).bind fun _ _ hmid _ => minds_writeEach (hmid.free hfree) hk _ _ _

theorem minds_setNegative (hfree : now.Free) (hk : stack.fullKey k ≠ key) :
    Minds stack key caller now (stack.setNegative k : CacheProc Loader _)
      fun _ result => result = .ok () :=
  (minds_jittered hfree _).bind fun _ _ hmid _ => minds_writeEach (hmid.free hfree) hk _ _ _

theorem minds_deleteEach (hfree : now.Free) (hk : k ≠ key) (tiers : List Tier) :
    Minds stack key caller now (Stack.deleteEach k (.ok ()) tiers : CacheProc Loader _)
      fun _ result => result = .ok () := by
  induction tiers generalizing now with
  | nil => exact minds_pure rfl
  | cons tier rest ih =>
    refine (minds_deleteIn hfree tier hk).bind ?_
    rintro mid result hmid rfl
    exact ih (hmid.free hfree)

theorem minds_close (hfree : now.Free) :
    Minds stack key caller now (stack.close : CacheProc Loader Unit) fun _ _ => True := by
  have heach (tiers : List Tier) {now : Outlook} (hfree : now.Free) :
      Minds stack key caller now (Stack.closeEach tiers : CacheProc Loader Unit) fun _ _ => True := by
    induction tiers generalizing now with
    | nil => exact minds_pure trivial
    | cons tier rest ih =>
      have hclose : Minds stack key caller now (CacheProc.ask (.close tier.slot) : CacheProc Loader Unit)
          fun _ _ => True :=
        ⟨⟨permits_free rfl hfree, trivial⟩, fun _ _ ha => ⟨ha, trivial⟩⟩
      exact hclose.bind fun _ _ hmid _ => ih (hmid.free hfree)
  exact (heach stack.tiers hfree).bind fun _ _ hmid _ => minds_notice (hmid.free hfree) _

theorem minds_loadWith (hfree : now.Free) (hk : stack.fullKey k ≠ key) (hc : ¬caller) (loader : Loader)
    (ttl : Duration) :
    Minds stack key caller now (stack.loadWith k loader ttl) fun _ _ => True := by
  have hload {mid : Outlook} (hfree : mid.Free) :
      Minds stack key caller mid (CacheProc.load loader) fun _ _ => True :=
    ⟨⟨permits_free rfl hfree, fun h => absurd h hc⟩, fun _ _ ha => ⟨ha.2 hc, trivial⟩⟩
  refine (minds_count hfree _).bind fun mid _ hmid _ => ?_
  refine (hload (hmid.free hfree)).bind fun late reply hlate _ => ?_
  have hfree := (hmid.trans hlate).free hfree
  cases reply with
  | ok loaded =>
    refine (minds_set hfree hk _ _).bind ?_
    rintro last result - rfl
    exact minds_pure trivial
  | error e =>
    simp only
    split
    · refine (minds_notice hfree _).bind fun last _ hlast _ => ?_
      refine (minds_setNegative (hlast.free hfree) hk).bind ?_
      rintro end' result - rfl
      exact minds_pure trivial
    · exact minds_pure trivial

-- ---------------------------------------------------------------------------
-- The load of who leads the key's flight
-- ---------------------------------------------------------------------------

theorem settles_writeEach {finding : Finding} (hl : now.Leads key) (hstorable : finding.Storable)
    (hstage : now.stage.finding? = some finding) {below : List Tier} (hbelow : below <:+ stack.tiers)
    (hwritten : below = [] → now.stage = .settled finding) (ttl : Duration) :
    (Stack.writeEach key finding.payload ttl (.ok ()) below : CacheProc Loader _).Keeps
      (minding stack key caller)
      (fun later result => result = .ok () ∧ later.stance = now.stance ∧
        later.stage = .settled finding) now := by
  induction below generalizing now with
  | nil => exact ⟨rfl, rfl, hwritten rfl⟩
  | cons tier below ih =>
    have hfree := hl.free
    have hholds : now.stage.Holds finding.payload := ⟨finding, hstage, hstorable, rfl⟩
    refine ⟨⟨permits_free rfl hfree, fun _ => hholds⟩, ?_⟩
    rintro reply later ⟨rfl, hsettles, hlater⟩
    have hrest : below <:+ stack.tiers := (List.suffix_cons tier below).trans hbelow
    by_cases hlast : stack.lowest? = some tier.slot
    · obtain ⟨hstance, hsettled⟩ := hsettles hl rfl hlast
      have hstage' := hsettled.trans (Stage.settle_of_finding hstage)
      rw [← hstance]
      exact ih (hl.moved hstance) (hstage' ▸ rfl) hrest fun _ => hstage'
    · have hlater := hlater fun h => hlast h.2.2
      rw [← hlater.stance]
      refine ih (hlater.leads.mpr hl) (hlater.sole hl ▸ hstage) hrest fun hnil => ?_
      subst hnil
      exact absurd (Stack.lowest_of_suffix hbelow) hlast

def Settled (now later : Outlook) (outcome : Outcome) : Prop :=
  later.stance = now.stance ∧
    ∃ finding : Finding, later.stage = .settled finding ∧ outcome = finding.outcome

theorem settles_write {finding : Finding} (hl : now.Leads key) (hstorable : finding.Storable)
    (hstage : now.stage.finding? = some finding) (htiers : stack.tiers ≠ []) (ttl : Duration) :
    (do
      let ttl ← stack.jittered ttl
      Stack.writeEach key finding.payload ttl (.ok ()) stack.tiers : CacheProc Loader _).Keeps
      (minding stack key caller)
      (fun later result => result = .ok () ∧ later.stance = now.stance ∧
        later.stage = .settled finding) now := by
  refine (minds_jittered hl.free ttl).andThen fun mid ttl hmid _ => ?_
  rw [← hmid.stance]
  exact settles_writeEach (hmid.leads.mpr hl) hstorable (Stage.finding_of_le hmid.stage hstage)
    List.suffix_rfl (fun hnil => absurd hnil htiers) ttl

/-- The only load of the key: its caller leads, and nobody has loaded before. -/
theorem settles_loadWith (hl : now.Leads key) (hstage : now.stage = .untouched) (hc : caller)
    (hk : stack.fullKey k = key) (htiers : stack.tiers ≠ []) (loader : Loader) (ttl : Duration) :
    (stack.loadWith k loader ttl).Keeps (minding stack key caller) (Settled now) now := by
  subst hk
  refine (minds_count hl.free .loaderCall).andThen fun mid _ hmid _ => ?_
  have hl := hmid.leads.mpr hl
  have hstage := (hmid.sole (hmid.leads.mp hl)).trans hstage
  have hload : (CacheProc.load loader).Keeps (minding stack (stack.fullKey k) caller)
      (fun late reply => late.stance = mid.stance ∧ late.stage = .loaded reply ∧
        Finding.Storable reply) mid :=
    ⟨⟨permits_free rfl hl.free, fun _ => ⟨hl, hstage⟩⟩, fun _ _ ha => ha.1 hc⟩
  refine hload.bind fun late reply ⟨hstance, hloaded, hstorable⟩ => ?_
  have hl := hl.moved hstance
  have hfinding : late.stage.finding? = some reply := hloaded ▸ rfl
  cases reply with
  | ok loaded =>
    refine (settles_write hl hstorable hfinding htiers _).bind ?_
    rintro last result ⟨rfl, hlast, hsettled⟩
    exact ⟨(hlast.trans hstance).trans hmid.stance, .ok loaded, hsettled, rfl⟩
  | error e =>
    have hnotFound : e.isNotFound = true := hstorable
    simp only [hnotFound, ↓reduceIte]
    refine (minds_notice hl.free _).andThen fun noted _ hnoted _ => ?_
    have hfinding := Stage.finding_of_le hnoted.stage hfinding
    refine (settles_write (hnoted.leads.mpr hl) hstorable hfinding htiers _).bind ?_
    rintro last result ⟨rfl, hlast, hsettled⟩
    exact ⟨((hlast.trans hnoted.stance).trans hstance).trans hmid.stance, .error e, hsettled, rfl⟩

theorem settles_getOr {onMiss : CacheProc Loader Outcome} (hl : now.Leads key)
    (hstage : ∀ finding, now.stage ≠ .loaded finding) (hk : stack.fullKey k = key)
    (htiers : stack.tiers ≠ [])
    (hmiss : ∀ mid : Outlook, mid.Leads key → mid.stage = .untouched →
      onMiss.Keeps (minding stack key caller) (Settled mid) mid) :
    (stack.getOr k onMiss).Keeps (minding stack key caller) (Settled now) now := by
  refine (minds_get hl.free htiers fun _ _ => hstage).andThen ?_
  rintro mid result hmid ⟨found, rfl, hfinds⟩
  have hleads := hmid.leads.mpr hl
  rcases hfinds hk with ⟨finding, hfinding, rfl⟩ | ⟨rfl, huntouched⟩
  · have hsettled : mid.stage = .settled finding := by
      rw [hmid.sole hl] at hfinding ⊢
      cases hnow : now.stage with
      | untouched =>
        rw [hnow] at hfinding
        cases hfinding
      | loaded _ => exact absurd hnow (hstage _)
      | settled _ =>
        rw [hnow] at hfinding
        cases hfinding
        rfl
    cases finding with
    | ok loaded => exact ⟨hmid.stance, .ok loaded, hsettled, rfl⟩
    | error e => exact ⟨hmid.stance, .error e, hsettled, rfl⟩
  · refine (hmiss mid hleads (huntouched hleads)).mono ?_
    rintro later outcome ⟨hstance, hsettled⟩
    exact ⟨hstance.trans hmid.stance, hsettled⟩

-- ---------------------------------------------------------------------------
-- Sharing loads
-- ---------------------------------------------------------------------------

def Returned (later : Outlook) (outcome : Outcome) : Prop :=
  later.stance = .outside ∧
    ∃ finding : Finding, later.stage.finding? = some finding ∧ outcome = finding.outcome

theorem returns_share (hout : now.stance = .outside) (hc : caller) {load : CacheProc Loader Outcome}
    (hload : ∀ mid : Outlook, mid.Leads key → (∀ finding, mid.stage ≠ .loaded finding) →
      load.Keeps (minding stack key caller) (Settled mid) mid) :
    (share key load).Keeps (minding stack key caller) Returned now := by
  refine ⟨⟨hout, iff_of_true rfl hc⟩, ?_⟩
  rintro seat waiting ⟨⟨hkey, hwaiting⟩, -⟩
  refine ⟨⟨hwaiting, trivial⟩, ?_⟩
  rintro landed mid ⟨hstance, -, hseat⟩
  cases landed with
  | some outcome =>
    obtain ⟨finding, hsettled, rfl⟩ := hseat hkey
    refine ⟨⟨hstance, trivial⟩, ?_⟩
    rintro _ later ⟨hgone, hle⟩
    exact ⟨hgone, finding, Stage.finding_of_le hle (hsettled ▸ rfl), finding.share_outcome⟩
  | none =>
    refine (hload mid ⟨seat, hstance, hkey⟩ (hseat hkey)).bind ?_
    rintro ready outcome ⟨hready, finding, hsettled, rfl⟩
    refine ⟨⟨hready.trans hstance, fun _ => ⟨finding, hsettled, rfl⟩⟩, ?_⟩
    rintro _ down ⟨hdown, hle⟩
    refine ⟨⟨hdown, trivial⟩, ?_⟩
    rintro _ later ⟨hgone, hle'⟩
    have hfinding : later.stage.finding? = some finding :=
      Stage.finding_of_le (Stage.le_trans hle hle') (hsettled ▸ rfl)
    exact ⟨hgone, finding, hfinding, finding.share_outcome⟩

theorem ends_share (hout : now.stance = .outside) (hk : k ≠ key) (hc : ¬caller)
    {load : CacheProc Loader Outcome}
    (hload : ∀ mid : Outlook, mid.Free → Minds stack key caller mid load fun _ _ => True) :
    (share k load).Keeps (minding stack key caller) (fun later _ => later.stance = .outside) now := by
  refine ⟨⟨hout, iff_of_false hk hc⟩, ?_⟩
  rintro seat waiting ⟨⟨hkey, hwaiting⟩, -⟩
  have hseat : seat.key ≠ key := hkey ▸ hk
  refine ⟨⟨hwaiting, trivial⟩, ?_⟩
  rintro landed mid ⟨hstance, -, -⟩
  cases landed with
  | some outcome =>
    refine ⟨⟨hstance, trivial⟩, ?_⟩
    rintro _ later ⟨hgone, -⟩
    exact hgone
  | none =>
    refine (hload mid (.inr ⟨seat, hstance⟩)).andThen fun ready outcome hready _ => ?_
    refine ⟨⟨hready.stance.trans hstance, fun h => absurd h hseat⟩, ?_⟩
    rintro _ down ⟨hdown, -⟩
    refine ⟨⟨hdown, trivial⟩, ?_⟩
    rintro _ later ⟨hgone, -⟩
    exact hgone

/-- A caller under single flight returns what was loaded, by whomever. -/
theorem returns_remember (hout : now.stance = .outside) (hc : caller) (hk : stack.fullKey k = key)
    (htiers : stack.tiers ≠ []) (loader : Loader) {options : RememberOptions}
    (hpolicy : options.policy.getD stack.settings.policy = .singleFlight) :
    (stack.remember k loader options).Keeps (minding stack key caller) Returned now := by
  subst hk
  have hnone : ¬now.Leads (stack.fullKey k) := by
    rintro ⟨seat, hseat, -⟩
    rw [hout] at hseat
    cases hseat
  simp only [Stack.remember, hpolicy]
  refine (minds_get (.inl hout) htiers fun _ h => absurd h hnone).andThen ?_
  rintro mid result hmid ⟨found, rfl, hfinds⟩
  have hmidout := hmid.stance.trans hout
  rcases hfinds rfl with ⟨finding, hfinding, rfl⟩ | ⟨rfl, -⟩
  · cases finding with
    | ok loaded => exact ⟨hmidout, .ok loaded, hfinding, rfl⟩
    | error e => exact ⟨hmidout, .error e, hfinding, rfl⟩
  · exact returns_share hmidout hc fun led hl hstage =>
      settles_getOr hl hstage rfl htiers fun miss hl huntouched =>
        settles_loadWith hl huntouched hc rfl htiers loader _

theorem ends_remember (hout : now.stance = .outside) (hc : ¬caller) (hk : stack.fullKey k ≠ key)
    (htiers : stack.tiers ≠ []) (loader : Loader) (options : RememberOptions) :
    (stack.remember k loader options).Keeps (minding stack key caller)
      (fun later _ => later.stance = .outside) now := by
  have hgetOr {onMiss : CacheProc Loader Outcome} {mid : Outlook} (hfree : mid.Free)
      (hmiss : ∀ late : Outlook, late.Free →
        Minds stack key caller late onMiss fun _ _ => True) :
      Minds stack key caller mid (stack.getOr k onMiss) fun _ _ => True := by
    refine (minds_get hfree htiers fun h => absurd h hk).bind ?_
    rintro late result hlate ⟨found, rfl, -⟩
    cases found with
    | miss => exact hmiss late (hlate.free hfree)
    | _ => exact minds_pure trivial
  have hload (mid : Outlook) (hfree : mid.Free) :=
    minds_loadWith hfree hk hc loader (stack.resolveTtl (options.ttl.getD .zero))
  refine (minds_get (.inl hout) htiers fun h => absurd h hk).andThen ?_
  rintro mid result hmid ⟨found, rfl, -⟩
  have hmidout := hmid.stance.trans hout
  cases found with
  | miss =>
    simp only
    split
    · refine Proc.Keeps.mono (hload mid (.inl hmidout)) ?_
      rintro later outcome ⟨hlater, -⟩
      exact hlater.stance.trans hmidout
    · exact ends_share hmidout hk hc fun late hfree => hgetOr hfree hload
  | _ => exact hmidout

end StackedCache.Concurrency
