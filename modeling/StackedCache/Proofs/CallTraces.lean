import StackedCache.Proofs.Traces

/-!
# Traces of calls on one key

A read changes nothing but the layers above the one in which it has found a
value, and a write puts one payload into all layers for one time to live. These
are the two ways in which a call comes to put something under a key.
-/

namespace StackedCache

open Simulation CacheProc

/-- A write to be made: a content of a key, for a time that is yet to be spread. -/
structure Due where
  key : String
  content : Option Bytes
  ttl : Duration

namespace Stack

variable (stack : Stack)

/-- A time to live is taken as it is, or spread by one draw if the stack jitters at all. -/
inductive Spread (ttl : Duration) : List CacheExchange → Duration → Prop
  | exact (h : Jitter.spread? stack.settings.jitter = none) : Spread ttl [] ttl
  | drawn {spread : Rat} (h : Jitter.spread? stack.settings.jitter = some spread) (delta : Rat) :
      Spread ttl [⟨.draw spread, delta⟩] (Jitter.scale Binary64.round ttl delta)

inductive Drawn : List Due → List CacheExchange → List (String × Bytes × Duration) → Prop
  | nil : Drawn [] [] []
  | cons {due : Due} {dues : List Due} {draws more : List CacheExchange} {ttl : Duration}
      {rows : List (String × Bytes × Duration)} (h : stack.Spread due.ttl draws ttl)
      (hrest : Drawn dues more rows) :
      Drawn (due :: dues) (draws ++ more)
        ((stack.fullKey due.key, Record.payloadOf due.content, ttl) :: rows)

/-- The part draws for some dues, and writes them to all layers. -/
def Settles (given : String → Prop) (dues : List Due) (told : List CacheExchange) : Prop :=
  ∃ draws rows, stack.Drawn dues draws rows ∧ Comes given draws (putsOf stack.tiers rows) told

def Copied (told : List CacheExchange) (key : String) (payload : Bytes) : Prop :=
  ∃ upper lower below, stack.tiers = upper ++ lower :: below ∧
    (∃ e ∈ told, Fetches e lower.slot key (some payload)) ∧
    changesOf key told =
      upper.map fun tier => (tier.slot, Change.put payload stack.settings.defaultTtl)

/-- The part reads keys: it changes nothing but for the copies of the values that it finds. -/
structure Reads (given : String → Prop) (told : List CacheExchange) : Prop where
  proper : ∀ e ∈ told, e.1.Proper given
  inputs : inputsOf told = []
  copies (key : String) : changesOf key told = [] ∨
    ∃ payload value, Record.decode payload = some (.positive value) ∧ stack.Copied told key payload

/-- For how long a loaded value is to be kept: as its loader says, as the call asks for, or for
the default, whichever is the first that is not zero. -/
def loadedTtl (asked : Duration) (loaded : Loaded) : Duration :=
  ([loaded.ttl.getD .zero, asked].find? fun ttl => !ttl.isZero).getD stack.settings.defaultTtl

def learned (key : String) (asked : Duration) : Except CacheError Loaded → List Due
  | .ok loaded => [⟨key, some loaded.value, stack.loadedTtl asked loaded⟩]
  | .error e => if e.isNotFound then [⟨key, none, stack.settings.negativeTtl⟩] else []

def Loads (given : String → Prop) (key : String) (loader : ScriptedLoader) (asked : Duration)
    (told : List CacheExchange) : Prop :=
  ∃ loaded draws rows, stack.Drawn (stack.learned key asked loaded) draws rows ∧
    Comes given (⟨.load loader, loaded⟩ :: draws) (putsOf stack.tiers rows) told

section
variable {stack : Stack} {given : String → Prop} {told more : List CacheExchange} {key : String}
  {payload : Bytes} {asked : Duration}

theorem Copied.append (h : stack.Copied told key payload) (hmore : changesOf key more = []) :
    stack.Copied (told ++ more) key payload := by
  obtain ⟨upper, lower, below, htiers, ⟨e, he, hfetched⟩, hchanges⟩ := h
  refine ⟨upper, lower, below, htiers, ⟨e, List.mem_append_left _ he, hfetched⟩, ?_⟩
  rw [changesOf_append, hmore, hchanges, List.append_nil]

theorem Copied.prepend (h : stack.Copied more key payload) (htold : changesOf key told = []) :
    stack.Copied (told ++ more) key payload := by
  obtain ⟨upper, lower, below, htiers, ⟨e, he, hfetched⟩, hchanges⟩ := h
  refine ⟨upper, lower, below, htiers, ⟨e, List.mem_append_right _ he, hfetched⟩, ?_⟩
  rw [changesOf_append, htold, hchanges, List.nil_append]

theorem Reads.of_quiet (h : Quiet given told) : stack.Reads given told :=
  ⟨h.proper, h.inputs, fun key => .inl (h.changes key)⟩

theorem Reads.after (h : stack.Reads given more) (hquiet : Quiet given told) :
    stack.Reads given (told ++ more) := by
  refine ⟨List.forall_mem_append.mpr ⟨hquiet.proper, h.proper⟩, ?_, fun key => ?_⟩
  · rw [inputsOf_append, hquiet.inputs, h.inputs, List.nil_append]
  · rcases h.copies key with hnone | ⟨payload, value, hdecode, hcopied⟩
    · exact .inl (by rw [changesOf_append, hquiet.changes, hnone, List.nil_append])
    · exact .inr ⟨payload, value, hdecode, hcopied.prepend (hquiet.changes key)⟩

theorem Reads.before (h : stack.Reads given told) (hquiet : Quiet given more) :
    stack.Reads given (told ++ more) := by
  refine ⟨List.forall_mem_append.mpr ⟨h.proper, hquiet.proper⟩, ?_, fun key => ?_⟩
  · rw [inputsOf_append, hquiet.inputs, h.inputs, List.nil_append]
  · rcases h.copies key with hnone | ⟨payload, value, hdecode, hcopied⟩
    · exact .inl (by rw [changesOf_append, hquiet.changes, hnone, List.nil_append])
    · exact .inr ⟨payload, value, hdecode, hcopied.append (hquiet.changes key)⟩

theorem Settles.after {dues : List Due} (h : stack.Settles given dues more)
    (hquiet : Quiet given told) : stack.Settles given dues (told ++ more) := by
  obtain ⟨draws, rows, hdrawn, hcomes⟩ := h
  exact ⟨draws, rows, hdrawn, hcomes.after hquiet⟩

theorem Settles.before {dues : List Due} (h : stack.Settles given dues told)
    (hquiet : Quiet given more) : stack.Settles given dues (told ++ more) := by
  obtain ⟨draws, rows, hdrawn, hcomes⟩ := h
  exact ⟨draws, rows, hdrawn, hcomes.before hquiet⟩

theorem Settles.stable {β : Type} {dues : List Due} :
    Stable given fun told (_ : β) => stack.Settles given dues told :=
  fun _ _ _ hquiet h => h.after hquiet

theorem Loads.after {loader : ScriptedLoader} (h : stack.Loads given key loader asked more)
    (hquiet : Quiet given told) : stack.Loads given key loader asked (told ++ more) := by
  obtain ⟨loaded, draws, rows, hdrawn, hcomes⟩ := h
  exact ⟨loaded, draws, rows, hdrawn, hcomes.after hquiet⟩

theorem Loads.stable {β : Type} {loader : ScriptedLoader} :
    Stable given fun told (_ : β) => stack.Loads given key loader asked told :=
  fun _ _ _ hquiet h => h.after hquiet

theorem Loads.before {loader : ScriptedLoader} (h : stack.Loads given key loader asked told)
    (hquiet : Quiet given more) : stack.Loads given key loader asked (told ++ more) := by
  obtain ⟨loaded, draws, rows, hdrawn, hcomes⟩ := h
  exact ⟨loaded, draws, rows, hdrawn, hcomes.before hquiet⟩

-- ---------------------------------------------------------------------------
-- Reading
-- ---------------------------------------------------------------------------

theorem traced_backfill (h : given key) (payload : Bytes) (tiers : List Tier) :
    (stack.backfill key payload tiers : CacheProc ScriptedLoader Unit).Traced fun told _ =>
      Comes given [] (putsOf tiers [(key, payload, stack.settings.defaultTtl)]) told := by
  induction tiers with
  | nil => exact Proc.traced_pure (Comes.nil.congr fun _ => (putsOf_no_tiers _).symm)
  | cons tier rest ih =>
    refine (traced_setIn h tier payload _).bind fun told result hset => ?_
    refine Proc.Traced.mono (P := fun more _ => Comes given [] _ more) ?_
      fun more _ hmore => (hset.append hmore).congr fun _ => (putsOf_cons tier rest _ _).symm
    cases result <;> exact traced_notice Comes.stable _ ih

structure Looked (stack : Stack) (given : String → Prop) (told : List CacheExchange)
    (result : Except CacheError Lookup) : Prop where
  reads : stack.Reads given told
  missed : result = .ok .miss → Quiet given told

theorem Looked.of_quiet {result : Except CacheError Lookup} (h : Quiet given told) :
    Looked stack given told result :=
  ⟨.of_quiet h, fun _ => h⟩

theorem Looked.stable : Stable given (Looked stack given) :=
  fun _ _ _ hquiet h => ⟨h.reads.after hquiet, fun hmiss => (h.missed hmiss).after hquiet⟩

theorem traced_getFrom (h : given key) (tier : Tier) :
    (getFrom tier key : CacheProc ScriptedLoader _).Traced fun told result =>
      Quiet given told ∧ told = [⟨.layer tier.slot (.get key), result⟩] := by
  refine (traced_ask _).mono ?_
  rintro _ result rfl
  have hproper : (CacheRequest.layer tier.slot (.get key) : CacheRequest ScriptedLoader).Proper given :=
    ⟨List.cons_ne_nil _ _, List.forall_mem_singleton.mpr h⟩
  exact ⟨quiet_exchange hproper rfl (fun _ => rfl) result, rfl⟩

theorem traced_readFrom (h : given key) {above below : List Tier}
    (htiers : stack.tiers = above ++ below) :
    (stack.readFrom key above below : CacheProc ScriptedLoader _).Traced
      (Looked stack given) := by
  have hdone (result : Except CacheError Lookup) :
      (pure result : CacheProc ScriptedLoader _).Traced (Looked stack given) :=
    Proc.traced_pure (.of_quiet .nil)
  induction below generalizing above with
  | nil => exact traced_notice Looked.stable _ (traced_count Looked.stable _ (hdone _))
  | cons tier below ih =>
    have hrest : stack.tiers = (above ++ [tier]) ++ below := by simpa using htiers
    refine (traced_getFrom h tier).bind ?_
    rintro _ result ⟨hquiet, rfl⟩
    match result with
    | .error e => exact (hdone _).after hquiet Looked.stable
    | .ok none => exact (ih hrest).after hquiet Looked.stable
    | .ok (some entry) =>
      simp only
      cases hdecode : Record.decode entry.payload with
      | none =>
        exact (traced_notice Looked.stable _ (ih hrest)).after hquiet Looked.stable
      | some record =>
        cases record with
        | negative =>
          refine (traced_notice Looked.stable _ ?_).after hquiet Looked.stable
          exact traced_count Looked.stable _ (hdone _)
        | positive value =>
          have hcopy : (do
              notice (.hit key tier.name)
              count (.hit tier.name)
              stack.backfill key entry.payload above
              pure (.ok (.hit (Record.positive value).value)) :
              CacheProc ScriptedLoader (Except CacheError Lookup)).Traced fun more result =>
              Comes given [] (putsOf above [(key, entry.payload, stack.settings.defaultTtl)]) more ∧
                result = .ok (.hit (Record.positive value).value) := by
            refine traced_notice Comes.stable.and _ (traced_count Comes.stable.and _ ?_)
            refine (traced_backfill h entry.payload above).bind fun more _ hmore => ?_
            exact Proc.traced_pure ⟨(List.append_nil more).symm ▸ hmore, rfl⟩
          refine hcopy.mono ?_
          rintro more _ ⟨hmore, rfl⟩
          have hall := hmore.after hquiet
          refine ⟨⟨hall.proper, hall.inputs, fun k => ?_⟩, by simp⟩
          by_cases hk : k = key
          · subst hk
            refine .inr ⟨entry.payload, value, hdecode, above, tier, below, htiers, ?_, ?_⟩
            · exact ⟨_, List.mem_cons_self, .get⟩
            · exact (hall.changes k).trans (putsOf_single ..)
          · exact .inl ((hall.changes k).trans (putsOf_other hk ..))

theorem traced_get (h : given (stack.fullKey key)) :
    (stack.get key : CacheProc ScriptedLoader _).Traced (Looked stack given) :=
  traced_readFrom h rfl

-- ---------------------------------------------------------------------------
-- Writing
-- ---------------------------------------------------------------------------

theorem traced_jittered (stack : Stack) (given : String → Prop) (ttl : Duration) :
    (stack.jittered ttl : CacheProc ScriptedLoader Duration).Traced fun told result =>
      ∃ draws, stack.Spread ttl draws result ∧ Comes given draws (fun _ => []) told := by
  unfold jittered
  cases hspread : Jitter.spread? stack.settings.jitter with
  | none => exact Proc.traced_pure ⟨[], .exact hspread, .nil⟩
  | some spread =>
    refine (traced_ask (.draw spread)).bind ?_
    rintro _ delta rfl
    refine Proc.traced_pure ⟨_, .drawn hspread delta, ?_⟩
    exact ⟨List.forall_mem_singleton.mpr trivial, rfl, fun _ => rfl⟩

theorem traced_writeEach (h : given key) (payload : Bytes) (ttl : Duration)
    (first : Except CacheError Unit) (tiers : List Tier) :
    (writeEach key payload ttl first tiers : CacheProc ScriptedLoader _).Traced fun told _ =>
      Comes given [] (putsOf tiers [(key, payload, ttl)]) told := by
  induction tiers generalizing first with
  | nil => exact Proc.traced_pure (Comes.nil.congr fun _ => (putsOf_no_tiers _).symm)
  | cons tier rest ih =>
    refine (traced_setIn h tier payload ttl).bind fun told result hset => ?_
    refine Proc.Traced.mono (P := fun more _ => Comes given [] _ more) ?_
      fun more _ hmore => (hset.append hmore).congr fun _ => (putsOf_cons tier rest _ _).symm
    match result with
    | .ok () => exact ih _
    | .error e => exact traced_notice Comes.stable _ (ih _)

theorem traced_due (due : Due) (h : given (stack.fullKey due.key)) :
    (do
      let ttl ← stack.jittered due.ttl
      writeEach (stack.fullKey due.key) (Record.payloadOf due.content) ttl (.ok ()) stack.tiers :
      CacheProc ScriptedLoader _).Traced fun told _ => stack.Settles given [due] told := by
  refine (traced_jittered stack given due.ttl).bind fun told ttl hjittered => ?_
  obtain ⟨draws, hspread, hdraws⟩ := hjittered
  refine (traced_writeEach h _ ttl _ _).mono fun more _ hmore => ?_
  exact ⟨draws ++ [], _, .cons hspread .nil, hdraws.append hmore⟩

theorem traced_set (h : given (stack.fullKey key)) (value : Bytes) (ttl : Duration) :
    (stack.set key value ttl : CacheProc ScriptedLoader _).Traced fun told _ =>
      stack.Settles given [⟨key, some value, stack.resolveTtl ttl⟩] told :=
  traced_due ⟨key, some value, stack.resolveTtl ttl⟩ h

theorem traced_setNegative (h : given (stack.fullKey key)) :
    (stack.setNegative key : CacheProc ScriptedLoader _).Traced fun told _ =>
      stack.Settles given [⟨key, none, stack.settings.negativeTtl⟩] told :=
  traced_due ⟨key, none, stack.settings.negativeTtl⟩ h

theorem traced_deleteIn (h : given key) (tier : Tier) :
    (deleteIn tier key : CacheProc ScriptedLoader _).Traced fun told _ =>
      Comes given [] (removalsOf [tier] key) told := by
  refine (traced_ask _).mono ?_
  rintro _ reply rfl
  refine ⟨List.forall_mem_singleton.mpr ⟨List.cons_ne_nil _ _, ?_⟩, rfl, fun k => ?_⟩
  · exact List.forall_mem_singleton.mpr h
  · by_cases hk : key = k <;>
      simp [changesOf, CacheRequest.changes, LayerOp.change, removalsOf, hk]

theorem traced_deleteEach (h : given key) (first : Except CacheError Unit) (tiers : List Tier) :
    (deleteEach key first tiers : CacheProc ScriptedLoader _).Traced fun told _ =>
      Comes given [] (removalsOf tiers key) told := by
  induction tiers generalizing first with
  | nil => exact Proc.traced_pure (Comes.nil.congr fun k => by simp [removalsOf])
  | cons tier rest ih =>
    refine (traced_deleteIn h tier).bind fun told result hdelete => ?_
    refine Proc.Traced.mono (P := fun more _ => Comes given [] (removalsOf rest key) more) ?_
      fun more _ hmore => (hdelete.append hmore).congr fun k => by unfold removalsOf; split <;> rfl
    match result with
    | .ok () => exact ih _
    | .error e => exact traced_notice Comes.stable _ (ih _)

theorem traced_close (stack : Stack) (given : String → Prop) :
    (stack.close : CacheProc ScriptedLoader Unit).Traced fun told _ => Quiet given told := by
  have heach (tiers : List Tier) :
      (closeEach tiers : CacheProc ScriptedLoader Unit).Traced fun told _ => Quiet given told := by
    induction tiers with
    | nil => exact Proc.traced_pure .nil
    | cons tier rest ih => exact traced_aside trivial rfl (fun _ => rfl) Comes.stable fun _ => ih
  refine (heach stack.tiers).bind fun told _ htold => (traced_ask _).mono ?_
  rintro _ reply rfl
  exact htold.append (quiet_exchange (r := .notice _) trivial rfl (fun _ => rfl) reply)

-- ---------------------------------------------------------------------------
-- Reading through a loader
-- ---------------------------------------------------------------------------

theorem ttlOr_resolveTtl (stack : Stack) (asked : Duration) (loaded : Loaded) :
    loaded.ttlOr (stack.resolveTtl asked) = stack.loadedTtl asked loaded := by
  unfold loadedTtl resolveTtl Loaded.ttlOr Duration.orElse
  cases hsuggested : (loaded.ttl.getD .zero).isZero <;> cases hasked : asked.isZero <;>
    simp [hsuggested, hasked]

theorem resolveTtl_loadedTtl (stack : Stack) (asked : Duration) (loaded : Loaded) :
    stack.resolveTtl (stack.loadedTtl asked loaded) = stack.loadedTtl asked loaded := by
  unfold resolveTtl Duration.orElse
  split
  · rename_i hzero
    cases hsuggested : (loaded.ttl.getD .zero).isZero <;> cases hasked : asked.isZero <;>
      simp_all [loadedTtl]
  · rfl

theorem traced_loadWith (h : given (stack.fullKey key)) (loader : ScriptedLoader) (asked : Duration) :
    (stack.loadWith key loader (stack.resolveTtl asked)).Traced fun told _ =>
      stack.Loads given key loader asked told := by
  have hdone (outcome : Outcome) :
      (pure outcome : CacheProc ScriptedLoader Outcome).Traced fun told _ => Quiet given told :=
    Proc.traced_pure .nil
  refine traced_count Loads.stable _ ((traced_ask (.load loader)).bind ?_)
  rintro _ loaded rfl
  refine Proc.Traced.mono (P := fun more _ => stack.Settles given (stack.learned key asked loaded) more) ?_ ?_
  · match loaded with
    | .ok loaded =>
      have hset := traced_set h loaded.value (stack.loadedTtl asked loaded)
      rw [resolveTtl_loadedTtl] at hset
      simp only [ttlOr_resolveTtl]
      refine hset.bind fun told result hsettles => ?_
      refine Proc.Traced.of_quiet ?_
        fun more _ hmore => hsettles.before hmore
      match result with
      | .ok () => exact hdone _
      | .error e => exact traced_notice Comes.stable _ (hdone _)
    | .error e =>
      simp only [learned]
      split
      · refine traced_notice Settles.stable _ ((traced_setNegative h).bind fun told result hsettles => ?_)
        refine Proc.Traced.of_quiet ?_
          fun more _ hmore => hsettles.before hmore
        match result with
        | .ok () => exact hdone _
        | .error e => exact traced_notice Comes.stable _ (hdone _)
      · exact Proc.traced_pure ⟨[], [], .nil, Comes.nil⟩
  · rintro more _ ⟨draws, rows, hdrawn, hcomes⟩
    refine ⟨loaded, draws, rows, hdrawn, ⟨?_, congrArg _ hcomes.inputs, hcomes.changes⟩⟩
    exact List.forall_mem_cons.mpr ⟨trivial, hcomes.proper⟩

def ReadsOrLoads (stack : Stack) (given : String → Prop) (key : String) (loader : ScriptedLoader)
    (asked : Duration) (told : List CacheExchange) : Prop :=
  stack.Reads given told ∨ stack.Loads given key loader asked told

theorem ReadsOrLoads.stable {β : Type} {loader : ScriptedLoader} :
    Stable given fun told (_ : β) => ReadsOrLoads stack given key loader asked told :=
  fun _ _ _ hquiet h => h.imp (·.after hquiet) (·.after hquiet)

theorem ReadsOrLoads.before {loader : ScriptedLoader}
    (h : ReadsOrLoads stack given key loader asked told) (hquiet : Quiet given more) :
    ReadsOrLoads stack given key loader asked (told ++ more) :=
  h.imp (·.before hquiet) (·.before hquiet)

theorem traced_getOr (h : given (stack.fullKey key)) {loader : ScriptedLoader}
    {onMiss : CacheProc ScriptedLoader Outcome}
    (hmiss : onMiss.Traced fun told _ => ReadsOrLoads stack given key loader asked told) :
    (stack.getOr key onMiss).Traced fun told _ =>
      ReadsOrLoads stack given key loader asked told := by
  refine (traced_get h).bind fun told result hlooked => ?_
  have hdone (outcome : Outcome) : (pure outcome : CacheProc ScriptedLoader Outcome).Traced
      fun more _ => ReadsOrLoads stack given key loader asked (told ++ more) :=
    Proc.traced_pure (.inl ((List.append_nil told).symm ▸ hlooked.reads))
  match result with
  | .error e => exact hdone _
  | .ok (.hit value) => exact hdone _
  | .ok .negative => exact hdone _
  | .ok .miss => exact hmiss.after (hlooked.missed rfl) ReadsOrLoads.stable

theorem traced_share (key' : String) {loader : ScriptedLoader}
    {load : CacheProc ScriptedLoader Outcome}
    (hload : load.Traced fun told _ => ReadsOrLoads stack given key loader asked told) :
    (share key' load).Traced fun told _ => ReadsOrLoads stack given key loader asked told := by
  refine traced_aside trivial rfl (fun _ => rfl) ReadsOrLoads.stable fun (seat : Seat) => ?_
  refine traced_aside trivial rfl (fun _ => rfl) ReadsOrLoads.stable fun (landed : Option Outcome) => ?_
  match landed with
  | some outcome =>
    refine traced_aside trivial rfl (fun _ => rfl) ReadsOrLoads.stable fun _ => ?_
    exact Proc.traced_pure (.inl (.of_quiet .nil))
  | none =>
    refine hload.bind fun told outcome hloaded => ?_
    refine Proc.Traced.of_quiet ?_
      fun more _ hmore => hloaded.before hmore
    refine traced_aside trivial rfl (fun _ => rfl) Comes.stable fun _ => ?_
    exact traced_aside trivial rfl (fun _ => rfl) Comes.stable fun _ => Proc.traced_pure .nil

theorem traced_remember (h : given (stack.fullKey key)) (loader : ScriptedLoader)
    (options : RememberOptions) :
    (stack.remember key loader options).Traced fun told _ =>
      ReadsOrLoads stack given key loader (options.ttl.getD .zero) told := by
  have hload := (traced_loadWith h loader (options.ttl.getD .zero)).mono
    (Q := fun told _ => ReadsOrLoads stack given key loader (options.ttl.getD .zero) told)
    fun _ _ hloads => .inr hloads
  refine traced_getOr h ?_
  cases options.policy.getD stack.settings.policy with
  | cacheAside => exact hload
  | singleFlight => exact traced_share _ (traced_getOr h hload)

end

end Stack

end StackedCache
