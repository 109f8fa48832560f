import StackedCache.Proofs.BatchTraces

/-!
# Traces of whole calls

What a call writes is known when it is known what it was given and what its
loader has told it: each of these dues is paid once, under the full key, to all
layers and for one time to live. Nothing else is written but copies of what the
layers have had already.
-/

namespace StackedCache

open Simulation CacheProc

def Simulation.Work.keys : Work → List String
  | .get key | .getValue key | .set key _ _ | .delete key | .remember key _ _ => [key]
  | .mset items _ => items.keys
  | .mget keys | .mremember keys _ _ => keys
  | _ => []

def CacheRequest.isDraw {Loader : Type} : CacheRequest Loader → Bool
  | .draw _ => true
  | _ => false

def drawsOf (told : List CacheExchange) : List CacheExchange := told.filter (·.1.isDraw)

namespace Stack

variable (stack : Stack)

def lesson (work : Work) : CacheExchange → List Due
  | ⟨.load _, loaded⟩ =>
    match work with
    | .remember key _ options => stack.learned key (options.ttl.getD .zero) loaded
    | _ => []
  | ⟨.loadMany _ asked, .ok loaded⟩ =>
    match work with
    | .mremember _ _ options => asked.map (stack.learnedFor (options.ttl.getD .zero) loaded)
    | _ => []
  | _ => []

/-- What a call has to write, by its arguments and by what its loader has told it. -/
def dues (work : Work) (told : List CacheExchange) : List Due :=
  match work with
  | .set key value ttl => [⟨key, some value, stack.resolveTtl ttl⟩]
  | .mset items ttl => duesFor items.rows (stack.resolveTtl ttl)
  | _ => told.flatMap (stack.lesson work)

/-- What is put under a key is what a row says, or else a copy of what was there. -/
def Explained (told : List CacheExchange) (rows : List (String × Bytes × Duration)) (full : String) :
    Prop :=
  (full ∈ rows.map Prod.fst → changesOf full told = putsOf stack.tiers rows full) ∧
  (full ∉ rows.map Prod.fst → (∀ change ∈ changesOf full told, change.2 = .removed) ∨
    ∃ payload value, Record.decode payload = some (.positive value) ∧ stack.Copied told full payload)

/-- The call names its own keys only, and writes its dues, one for a key. -/
structure Conducts (work : Work) (told : List CacheExchange) : Prop where
  proper : ∀ e ∈ told, e.1.Proper (stack.Named work.keys)
  distinct : ((stack.dues work told).map Due.key).Nodup
  settled : ∃ rows, stack.Drawn (stack.dues work told) (drawsOf told) rows ∧
    ∀ full, stack.Explained told rows full

section
variable {stack : Stack} {work : Work} {told : List CacheExchange} {given : String → Prop}
  {dues : List Due} {draws : List CacheExchange} {rows : List (String × Bytes × Duration)}
  {ttl ttl' : Duration}

theorem drawsOf_inputs (told : List CacheExchange) :
    drawsOf told = (inputsOf told).filter (·.1.isDraw) := by
  rw [inputsOf, List.filter_filter, drawsOf]
  refine List.filter_congr ?_
  rintro ⟨r, reply⟩ -
  cases r <;> rfl

theorem lessons_inputs (stack : Stack) (work : Work) (told : List CacheExchange) :
    told.flatMap (stack.lesson work) = (inputsOf told).flatMap (stack.lesson work) := by
  induction told with
  | nil => rfl
  | cons e told ih =>
    obtain ⟨r, reply⟩ := e
    cases r <;> simp [inputsOf, CacheRequest.isInput, lesson, ih]

theorem Spread.filter_draws (h : stack.Spread ttl draws ttl') : draws.filter (·.1.isDraw) = draws := by
  cases h <;> rfl

theorem Spread.lessons (h : stack.Spread ttl draws ttl') : draws.flatMap (stack.lesson work) = [] := by
  cases h <;> rfl

theorem Drawn.filter_draws (h : stack.Drawn dues draws rows) : draws.filter (·.1.isDraw) = draws := by
  induction h with
  | nil => rfl
  | cons hspread _ ih => rw [List.filter_append, hspread.filter_draws, ih]

theorem Drawn.lessons (h : stack.Drawn dues draws rows) : draws.flatMap (stack.lesson work) = [] := by
  induction h with
  | nil => rfl
  | cons hspread _ ih => rw [List.flatMap_append, hspread.lessons, ih, List.append_nil]

theorem explained_of_eq (h : ∀ full, changesOf full told = putsOf stack.tiers rows full) (full : String) :
    stack.Explained told rows full := by
  refine ⟨fun _ => h full, fun hnot => .inl ?_⟩
  rw [h, putsOf, Table.lookup_eq_none hnot]
  exact List.forall_mem_nil _

theorem explained_of_reads (h : stack.Reads given told) (full : String) :
    stack.Explained told [] full := by
  refine ⟨fun hmem => absurd hmem List.not_mem_nil, fun _ => (h.copies full).imp_left fun hnone => ?_⟩
  rw [hnone]
  exact List.forall_mem_nil _

theorem Reads.lessons (h : stack.Reads given told) (work : Work) :
    told.flatMap (stack.lesson work) = [] := by
  rw [lessons_inputs, h.inputs]
  rfl

theorem Reads.drawsOf_eq (h : stack.Reads given told) : drawsOf told = [] := by
  rw [drawsOf_inputs, h.inputs]
  rfl

theorem Conducts.of_reads (hdues : stack.dues work told = told.flatMap (stack.lesson work))
    (h : stack.Reads given told) (hgiven : ∀ full, given full → stack.Named work.keys full) :
    stack.Conducts work told := by
  rw [h.lessons] at hdues
  refine ⟨fun e he => (h.proper e he).mono hgiven, hdues ▸ .nil, [], ?_, explained_of_reads h⟩
  rw [hdues, h.drawsOf_eq]
  exact .nil

theorem Conducts.of_comes (hdrawn : stack.Drawn dues draws rows) {inputs : List CacheExchange}
    (h : Comes given inputs (putsOf stack.tiers rows) told)
    (hgiven : ∀ full, given full → stack.Named work.keys full) (hdues : stack.dues work told = dues)
    (hdistinct : (dues.map Due.key).Nodup) (hdraws : inputs.filter (·.1.isDraw) = draws) :
    stack.Conducts work told := by
  refine ⟨fun e he => (h.proper e he).mono hgiven, hdues ▸ hdistinct, rows, ?_, explained_of_eq h.changes⟩
  rwa [hdues, drawsOf_inputs, h.inputs, hdraws]

theorem Conducts.of_settles (h : stack.Settles given dues told) (hdues : stack.dues work told = dues)
    (hdistinct : (dues.map Due.key).Nodup) (hgiven : ∀ full, given full → stack.Named work.keys full) :
    stack.Conducts work told := by
  obtain ⟨draws, rows, hdrawn, hcomes⟩ := h
  exact .of_comes hdrawn hcomes hgiven hdues hdistinct hdrawn.filter_draws

theorem learned_distinct (key : String) (asked : Duration) (loaded : Except CacheError Loaded) :
    ((stack.learned key asked loaded).map Due.key).Nodup := by
  unfold learned
  split
  · exact List.nodup_singleton _
  · split
    · exact List.nodup_singleton _
    · exact .nil

theorem Conducts.of_loads {key : String} {loader : ScriptedLoader} {options : RememberOptions}
    (h : stack.Loads (stack.Named [key]) key loader (options.ttl.getD .zero) told) :
    stack.Conducts (.remember key loader options) told := by
  obtain ⟨loaded, draws, rows, hdrawn, hcomes⟩ := h
  refine .of_comes hdrawn hcomes (fun _ h => h) ?_ (learned_distinct ..) ?_
  · refine (lessons_inputs stack _ told).trans ?_
    rw [hcomes.inputs, List.flatMap_cons, hdrawn.lessons, List.append_nil]
    rfl
  · exact hdrawn.filter_draws

theorem Conducts.of_removals {key : String}
    (h : Comes (stack.Named [key]) [] (removalsOf stack.tiers (stack.fullKey key)) told) :
    stack.Conducts (.delete key) told := by
  have hdues : stack.dues (.delete key) told = [] := by
    refine (lessons_inputs stack _ told).trans ?_
    rw [h.inputs]
    rfl
  refine ⟨h.proper, hdues ▸ .nil, [], ?_,
    fun full => ⟨fun hmem => absurd hmem List.not_mem_nil, fun _ => .inl ?_⟩⟩
  · rw [hdues, drawsOf_inputs, h.inputs]
    exact .nil
  · rw [h.changes, removalsOf]
    split
    · exact List.forall_mem_map.mpr fun _ _ => rfl
    · exact List.forall_mem_nil _

theorem Conducts.of_misses {keys : List String} {loader : ScriptedLoader} {options : RememberOptions}
    {first rest : List CacheExchange} {batch : BatchGet} {reply : Except CacheError (Table Loaded)}
    (hfetched : stack.Fetched {} (TtlMap.asked keys) first (.ok batch))
    (hrest : Comes (stack.Named batch.missing) (⟨.loadMany loader batch.missing, reply⟩ :: draws)
      (putsOf stack.tiers rows) rest)
    (hdrawn : stack.Drawn dues draws rows) (hdues : stack.lesson (.mremember keys loader options)
      ⟨.loadMany loader batch.missing, reply⟩ = dues)
    (hkeys : ∀ due ∈ dues, due.key ∈ batch.missing) (hdistinct : (dues.map Due.key).Nodup) :
    stack.Conducts (.mremember keys loader options) (first ++ rest) := by
  have hreads := hfetched.reads
  have hanswered := hfetched.answered rfl
  have hasked {key : String} (hkey : key ∈ TtlMap.asked keys) : key ∈ keys :=
    (TtlMap.mem_asked.mp hkey).1
  have hlessons : stack.dues (.mremember keys loader options) (first ++ rest) = dues := by
    refine (List.flatMap_append ..).trans ?_
    rw [hreads.lessons, lessons_inputs, hrest.inputs, List.flatMap_cons, hdues, hdrawn.lessons,
      List.append_nil, List.nil_append]
  refine ⟨List.forall_mem_append.mpr ⟨fun e he => ?_, fun e he => ?_⟩, hlessons ▸ hdistinct, rows, ?_,
    fun full => ⟨?_, ?_⟩⟩
  · refine (hreads.proper e he).mono ?_
    rintro _ ⟨key, hkey, rfl⟩
    exact ⟨key, hasked hkey, rfl⟩
  · refine (hrest.proper e he).mono ?_
    rintro _ ⟨key, hkey, rfl⟩
    exact ⟨key, hasked (hanswered.missing.mem hkey), rfl⟩
  · have hdraws : drawsOf (first ++ rest) = draws := by
      rw [drawsOf, List.filter_append, ← drawsOf, ← drawsOf, hreads.drawsOf_eq, drawsOf_inputs rest,
        hrest.inputs]
      exact hdrawn.filter_draws
    rwa [hlessons, hdraws]
  · intro hmem
    rw [hdrawn.keys] at hmem
    obtain ⟨due, hdue, rfl⟩ := List.mem_map.mp hmem
    rw [changesOf_append, (hanswered.missed (hkeys due hdue)).1, hrest.changes, List.nil_append]
  · intro hnot
    have hnone : changesOf full rest = [] := by rw [hrest.changes, putsOf, Table.lookup_eq_none hnot]
    rcases hreads.copies full with hfirst | ⟨payload, value, hdecode, hcopied⟩
    · exact .inl (by simp [hfirst, hnone])
    · exact .inr ⟨payload, value, hdecode, hcopied.append hnone⟩

theorem Conducts.of_remembers {keys : List String} {loader : ScriptedLoader}
    {options : RememberOptions} {result : Except CacheError (Table Bytes)}
    (h : stack.Remembers keys loader (options.ttl.getD .zero) told result) :
    stack.Conducts (.mremember keys loader options) told := by
  have hreads {first : List CacheExchange} {result : Except CacheError BatchGet}
      (h : (stack.mget keys).Ends first result) :
      stack.Conducts (.mremember keys loader options) first := by
    refine .of_reads rfl (traced_mget keys _ _ h).reads ?_
    rintro _ ⟨key, hkey, rfl⟩
    exact ⟨key, (TtlMap.mem_asked.mp hkey).1, rfl⟩
  -- the exchange with the loader comes before what is written
  have hload (batch : BatchGet) (reply : Except CacheError (Table Loaded)) :
      Comes (stack.Named batch.missing) [⟨.loadMany loader batch.missing, reply⟩] (fun _ => [])
        [⟨.count .loaderCall, ()⟩, ⟨.loadMany loader batch.missing, reply⟩] :=
    ⟨by simp [CacheRequest.Proper], rfl, fun _ => rfl⟩
  cases h with
  | unread h => exact hreads h
  | known h _ => exact hreads h
  | @failed first batch e h hsome =>
    exact .of_misses (traced_mget keys _ _ h) (hload batch (.error e)) .nil rfl (by simp) .nil
  | @loaded first after batch loaded values h hsome hstores =>
    obtain ⟨draws, rows, hdrawn, hcomes⟩ := hstores.settles
    have hkeys : (batch.missing.map (stack.learnedFor (options.ttl.getD .zero) loaded)).map Due.key =
        batch.missing := by simp [Function.comp_def, learnedFor_key]
    refine .of_misses (traced_mget keys _ _ h) ((hload batch (.ok loaded)).append hcomes) hdrawn rfl ?_ ?_
    · exact List.forall_mem_map.mpr fun key hkey => (learnedFor_key ..).symm ▸ hkey
    · rw [hkeys]
      exact ((traced_mget keys _ _ h).answered rfl).missing.nodup (TtlMap.nodup_asked keys)

-- ---------------------------------------------------------------------------
-- All calls
-- ---------------------------------------------------------------------------

theorem named_singleton {key : String} : stack.Named [key] (stack.fullKey key) :=
  ⟨key, List.mem_cons_self, rfl⟩

theorem conducts_get (key : String) (hdues : ∀ told, stack.dues work told = told.flatMap (stack.lesson work))
    (hkeys : work.keys = [key]) :
    (stack.get key : CacheProc ScriptedLoader _).Traced fun told _ => stack.Conducts work told :=
  (traced_get named_singleton).mono fun told _ h =>
    .of_reads (hdues told) h.reads fun _ hnamed => hkeys ▸ hnamed

/-- Each call names its own keys only, and writes its dues and copies. -/
theorem conducts_work (stack : Stack) (work : Work) :
    (Session.cacheWork (.stacked stack) work).Traced fun told _ => stack.Conducts work told := by
  cases work with
  | get key =>
    refine (conducts_get key (fun _ => rfl) rfl).then_pure fun result => ?_
    cases result <;> exact ⟨_, rfl⟩
  | getValue key =>
    refine Proc.Traced.map ((conducts_get key (fun _ => rfl) rfl).then_pure fun result => ?_)
    match result with
    | .error e => exact ⟨_, rfl⟩
    | .ok (.hit value) => exact ⟨_, rfl⟩
    | .ok .negative => exact ⟨_, rfl⟩
    | .ok .miss => exact ⟨_, rfl⟩
  | set key value ttl =>
    refine Proc.Traced.map ((traced_set named_singleton value ttl).mono fun told _ h => ?_)
    exact .of_settles h rfl (List.nodup_singleton _) fun _ hnamed => hnamed
  | delete key =>
    refine Proc.Traced.map ((traced_deleteEach named_singleton _ _).mono fun told _ h => ?_)
    exact .of_removals h
  | mset items ttl =>
    refine Proc.Traced.map ((traced_mset items ttl).mono fun told _ h => ?_)
    refine .of_settles h rfl ?_ fun _ hnamed => hnamed
    simpa [duesFor, Function.comp_def, Table.keys] using items.nodup
  | close =>
    have hclose : (stack.close : CacheProc ScriptedLoader Unit).Traced fun told _ =>
        stack.Conducts .close told :=
      (traced_close stack (stack.Named [])).mono fun told _ h =>
        .of_reads rfl (.of_quiet h) fun _ hnamed => hnamed
    exact hclose.then_pure fun _ => ⟨_, rfl⟩
  | remember key loader options =>
    refine Proc.Traced.map ((traced_remember named_singleton loader options).mono fun told _ h => ?_)
    rcases h with hreads | hloads
    · exact .of_reads rfl hreads fun _ hnamed => hnamed
    · exact .of_loads hloads
  | mget keys =>
    have hmget : (stack.mget keys : CacheProc ScriptedLoader _).Traced fun told _ =>
        stack.Conducts (.mget keys) told := by
      refine (traced_mget keys).mono fun told _ h => .of_reads rfl h.reads ?_
      rintro _ ⟨key, hkey, rfl⟩
      exact ⟨key, (TtlMap.mem_asked.mp hkey).1, rfl⟩
    refine hmget.then_pure fun result => ?_
    cases result <;> exact ⟨_, rfl⟩
  | mremember keys loader options =>
    have hmremember := (@traced_mremember stack keys loader options).mono
      (Q := fun told _ => stack.Conducts (.mremember keys loader options) told)
      fun told _ h => .of_remembers h
    refine hmremember.then_pure fun result => ?_
    cases result <;> exact ⟨_, rfl⟩
  | _ => exact Proc.traced_pure (.of_reads rfl (.of_quiet .nil) fun _ h => h)

end

end Stack

end StackedCache
