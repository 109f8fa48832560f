import StackedCache.Cache.Plan
import StackedCache.Proofs.Expiring
import StackedCache.Proofs.WorkTraces

/-!
# The time to live of each write

Zero stands for the default in a call, and for no expiry in a layer. Each way to
a layer puts something else for it: a write takes the first time to live that is
not zero, a jittered time has a least length, and a copy is kept for the default.
So with a default nothing stays in a layer forever.
-/

namespace StackedCache

open Simulation

-- ---------------------------------------------------------------------------
-- Traces and programs
-- ---------------------------------------------------------------------------

theorem CacheRequest.reply_nonempty {Loader : Type} (r : CacheRequest Loader) : Nonempty r.Reply :=
  ⟨r.refusal⟩

/-- What a program asks for at all is in one of its traces, since it can always be brought to its
end. -/
theorem Proc.Asks.of_traced {S : Signature} {α : Type} {P : S.Request → Prop}
    (hreply : ∀ r : S.Request, Nonempty (S.Reply r)) {p : Proc S α}
    (h : p.Traced fun told _ => ∀ e ∈ told, P e.1) : p.Asks P := by
  let answer (r : S.Request) (s : Unit) : S.Reply r × Unit := ((hreply r).some, s)
  induction p with
  | done a => exact trivial
  | ask r next ih =>
    have hcons {reply : S.Reply r} {told : List (Exchange S)} {a : α} (hends : (next reply).Ends told a) :
        P r ∧ ∀ e ∈ told, P e.1 :=
      List.forall_mem_cons.mp (h _ a (.ask hends))
    refine ⟨?_, fun reply _ _ => ih reply fun told a hends => (hcons hends).2⟩
    exact (hcons (ends_told answer (next (hreply r).some) ())).1

namespace Stack

-- ---------------------------------------------------------------------------
-- Dues
-- ---------------------------------------------------------------------------

def row (stack : Stack) (due : Due) : String × Bytes × Duration :=
  (stack.fullKey due.key, Record.payloadOf due.content, due.ttl)

section
variable {stack : Stack} {dues : List Due} {draws : List CacheExchange}
  {rows : List (String × Bytes × Duration)} {ttl ttl' : Duration}

theorem Spread.lasting (h : stack.Spread ttl draws ttl') (hlasting : ttl.isZero = false) :
    ttl'.isZero = false := by
  cases h with
  | exact => exact hlasting
  | drawn _ delta => exact Jitter.scale_isZero ..

theorem Spread.length_le (h : stack.Spread ttl draws ttl') : draws.length ≤ 1 := by
  cases h
  · exact Nat.zero_le 1
  · exact Nat.le_refl 1

theorem Drawn.lasting (h : stack.Drawn dues draws rows) (hdues : ∀ due ∈ dues, due.ttl.isZero = false) :
    ∀ row ∈ rows, row.2.2.isZero = false := by
  induction h with
  | nil => exact List.forall_mem_nil _
  | cons hspread _ ih =>
    obtain ⟨hdue, hdues⟩ := List.forall_mem_cons.mp hdues
    exact List.forall_mem_cons.mpr ⟨hspread.lasting hdue, ih hdues⟩

theorem Drawn.length_le (h : stack.Drawn dues draws rows) : draws.length ≤ rows.length := by
  induction h with
  | nil => exact Nat.le_refl 0
  | cons hspread _ ih =>
    have hone := hspread.length_le
    simp only [List.length_append, List.length_cons]
    omega

theorem Drawn.exact (h : stack.Drawn dues draws rows)
    (hjitter : Jitter.spread? stack.settings.jitter = none) : draws = [] ∧ rows = dues.map stack.row := by
  induction h with
  | nil => exact ⟨rfl, rfl⟩
  | cons hspread _ ih =>
    cases hspread with
    | exact =>
      obtain ⟨rfl, rfl⟩ := ih
      exact ⟨rfl, rfl⟩
    | drawn hspread => rw [hjitter] at hspread; cases hspread

end

section
variable {stack : Stack} {work : Work} {told : List CacheExchange}

theorem loadedTtl_lasting (hu : stack.Usable) (asked : Duration) (loaded : Loaded) :
    (stack.loadedTtl asked loaded).isZero = false := by
  rw [← resolveTtl_loadedTtl]
  exact Duration.isZero_orElse hu.lasting

theorem learned_lasting (hu : stack.Usable) {key : String} {asked : Duration}
    {loaded : Except CacheError Loaded} : ∀ due ∈ stack.learned key asked loaded, due.ttl.isZero = false := by
  unfold learned
  split
  · exact List.forall_mem_singleton.mpr (loadedTtl_lasting hu ..)
  · split
    · exact List.forall_mem_singleton.mpr hu.marking
    · exact List.forall_mem_nil _

theorem learnedFor_lasting (hu : stack.Usable) (asked : Duration) (loaded : Table Loaded) (key : String) :
    (stack.learnedFor asked loaded key).ttl.isZero = false := by
  unfold learnedFor
  split
  · exact loadedTtl_lasting hu ..
  · exact hu.marking

theorem lesson_lasting (hu : stack.Usable) (e : CacheExchange) :
    ∀ due ∈ stack.lesson work e, due.ttl.isZero = false := by
  unfold lesson
  split
  · split
    · exact learned_lasting hu
    · exact List.forall_mem_nil _
  · split
    · exact List.forall_mem_map.mpr fun key _ => learnedFor_lasting hu ..
    · exact List.forall_mem_nil _
  · exact List.forall_mem_nil _

theorem dues_lasting (hu : stack.Usable) (work : Work) (told : List CacheExchange) :
    ∀ due ∈ stack.dues work told, due.ttl.isZero = false := by
  have hresolved (ttl : Duration) : (stack.resolveTtl ttl).isZero = false :=
    Duration.isZero_orElse hu.lasting
  have hlessons : ∀ due ∈ told.flatMap (stack.lesson work), due.ttl.isZero = false := by
    intro due hdue
    obtain ⟨e, -, hdue⟩ := List.mem_flatMap.mp hdue
    exact lesson_lasting hu e due hdue
  unfold dues
  split
  · exact List.forall_mem_singleton.mpr (hresolved _)
  · exact List.forall_mem_map.mpr fun _ _ => hresolved _
  · exact hlessons

end

-- ---------------------------------------------------------------------------
-- Writes
-- ---------------------------------------------------------------------------

/-- The rows are what a call has written, one for each of its dues and each to all layers; all
else that it has put somewhere are copies. -/
structure Pays (stack : Stack) (work : Work) (told : List CacheExchange)
    (rows : List (String × Bytes × Duration)) : Prop where
  drawn : stack.Drawn (stack.dues work told) (drawsOf told) rows
  /-- No more is drawn than is written. -/
  draws : (drawsOf told).length ≤ rows.length
  distinct : (rows.map Prod.fst).Nodup
  lasting : ∀ row ∈ rows, row.2.2.isZero = false
  exact : stack.settings.jitter.toRat = 0 →
    drawsOf told = [] ∧ rows = (stack.dues work told).map stack.row
  explained (full : String) : stack.Explained told rows full

section
variable {stack : Stack} {work : Work} {told : List CacheExchange}
  {rows : List (String × Bytes × Duration)}

theorem Conducts.pays (h : stack.Conducts work told) (hu : stack.Usable)
    (hunit : stack.settings.jitter.inUnitInterval = true) : ∃ rows, stack.Pays work told rows := by
  obtain ⟨rows, hdrawn, hexplained⟩ := h.settled
  refine ⟨rows, hdrawn, hdrawn.length_le, ?_, hdrawn.lasting (dues_lasting hu work told), fun hzero => ?_,
    hexplained⟩
  · rw [hdrawn.keys]
    have hfull := h.distinct.map (f := stack.fullKey) fun _ _ => fullKey_inj.mp
    rwa [List.map_map] at hfull
  · exact hdrawn.exact (Jitter.spread_eq_none hunit hzero)

theorem Pays.put_lasting (h : stack.Pays work told rows) (hu : stack.Usable) {full : String} {slot : Nat}
    {payload : Bytes} {ttl : Duration} (hput : (slot, .put payload ttl) ∈ changesOf full told) :
    ttl.isZero = false := by
  obtain ⟨hwritten, hothers⟩ := h.explained full
  by_cases hmem : full ∈ rows.map Prod.fst
  · rw [hwritten hmem, putsOf] at hput
    split at hput
    · rename_i hrow
      obtain ⟨tier, -, heq⟩ := List.mem_map.mp hput
      cases heq
      exact h.lasting _ ((Table.lookup_eq_some_iff h.distinct).mp hrow)
    · cases hput
  · rcases hothers hmem with hremoved | ⟨payload', value, -, upper, lower, below, -, -, hchanges⟩
    · cases hremoved _ hput
    · rw [hchanges] at hput
      obtain ⟨tier, -, heq⟩ := List.mem_map.mp hput
      cases heq
      exact hu.lasting

theorem Pays.expires (h : stack.Pays work told rows) (hu : stack.Usable) {given : String → Prop}
    (hproper : ∀ e ∈ told, e.1.Proper given) : ∀ e ∈ told, e.1.Expires := by
  rintro ⟨r, reply⟩ he
  cases r with
  | layer slot op =>
    have hlasting {key : String} {payload : Bytes} {ttl : Duration}
        (hput : op.change key = .put payload ttl) : ttl.isZero = false :=
      h.put_lasting hu (mem_changesOf he hput (by simp))
    cases op with
    | set key payload ttl => exact hlasting (if_pos rfl)
    | mset items ttl =>
      -- there is an item, so the time to live is that of a put
      obtain ⟨key, hkey⟩ := List.exists_mem_of_ne_nil _ (hproper _ he).1
      obtain ⟨⟨key, payload⟩, hrow, rfl⟩ := List.mem_map.mp hkey
      have hput : (LayerOp.mset items ttl).change key = .put payload ttl := by
        simp only [LayerOp.change, Table.get?_eq_some_iff.mpr hrow]
      exact hlasting hput
    | _ => exact trivial
  | _ => exact trivial

end

end Stack

-- ---------------------------------------------------------------------------
-- Configurations
-- ---------------------------------------------------------------------------

namespace CacheConfig

theorem defaultTtlMs_ne_zero {config : CacheConfig} (h : config.fault? = none) :
    config.defaultTtlMs ≠ 0 := by
  intro hzero
  simp only [fault?, hzero, ↓reduceIte] at h
  split at h <;> cases h

theorem fault_of_plan {config : CacheConfig} {registered : String → Bool} {stack : Stack}
    {planned : List PlannedLayer} (h : config.plan registered = .ok (.stacked stack, planned)) :
    config.fault? = none ∧ ∃ layers, Stack.build config layers = .ok stack := by
  unfold plan at h
  split at h
  · cases h
  · split at h
    · cases h
    · rename_i hfault
      refine ⟨hfault, ?_⟩
      cases hlayers : planLayers registered 0 config.layers with
      | error e => rw [hlayers] at h; cases h
      | ok layers =>
        rw [hlayers] at h
        refine ⟨layers.map fun layer => (layer.name, true), ?_⟩
        cases hbuild : Stack.build config (layers.map fun layer => (layer.name, true)) with
        | error e => simp [hbuild, bind, Except.bind] at h
        | ok built =>
          simp only [hbuild, bind, Except.bind, pure, Except.pure] at h
          cases h
          rfl

end CacheConfig

-- ---------------------------------------------------------------------------
-- Calls
-- ---------------------------------------------------------------------------

/-- No call on the stack writes anything forever, and each of its writes has the time to live that
it should have. -/
structure Stack.WritesFor (stack : Stack) (work : Work) : Prop where
  expires : (Session.cacheWork (.stacked stack) work).Asks CacheRequest.Expires
  pays : (Session.cacheWork (.stacked stack) work).Traced fun told _ =>
    ∃ rows, stack.Pays work told rows
  /-- Whatever the layers and their stores are. -/
  below (layers : List Handle) (guard : Nat) :
    ((Session.cacheWork (.stacked stack) work).translate (KernelProc.cacheRequest layers guard)).Asks
      KernelRequest.Expires

/-- Whatever layers, loaders and draws reply: with a default time to live, which a usable
configuration has, each write of a call has an expiry at its layer, and one of at least a
millisecond at a server. It has one time to live for all layers, which is spread by one draw at
most, and not at all without jitter. A copy is kept for the default. -/
theorem writes_carry_ttls {config : CacheConfig} {layers : List (String × Bool)} {stack : Stack}
    (hbuild : Stack.build config layers = .ok stack) (hdefault : config.defaultTtlMs ≠ 0) (work : Work) :
    stack.settings = config.settings ∧ stack.WritesFor work ∧
    (∀ config : CacheConfig, config.fault? = none → config.defaultTtlMs ≠ 0) ∧
    ∀ (config : CacheConfig) (registered : String → Bool) (stack : Stack) (planned : List PlannedLayer),
      config.plan registered = .ok (.stacked stack, planned) →
      config.defaultTtlMs ≠ 0 ∧ ∃ layers, Stack.build config layers = .ok stack := by
  obtain ⟨hu, hsettings⟩ := Stack.build_usable hbuild hdefault
  have hunit : stack.settings.jitter.inUnitInterval = true := hsettings ▸ Stack.build_jitter hbuild
  have hwork := Stack.conducts_work stack work
  have hexpires : (Session.cacheWork (.stacked stack) work).Asks CacheRequest.Expires := by
    refine Proc.Asks.of_traced CacheRequest.reply_nonempty (hwork.mono fun told _ hconducts => ?_)
    obtain ⟨rows, hpays⟩ := hconducts.pays hu hunit
    exact hpays.expires hu hconducts.proper
  refine ⟨hsettings, ⟨hexpires, hwork.mono fun told _ hconducts => hconducts.pays hu hunit, ?_⟩,
    fun config => CacheConfig.defaultTtlMs_ne_zero, fun config registered stack planned hplan => ?_⟩
  · exact fun layers guard => hexpires.translate fun r hr => KernelProc.asks_cacheRequest layers guard hr
  · obtain ⟨hfault, hstack⟩ := CacheConfig.fault_of_plan hplan
    exact ⟨CacheConfig.defaultTtlMs_ne_zero hfault, hstack⟩

def evenConfig : CacheConfig := { jitter := ⟨0⟩ }

def evenStack : Stack := ⟨evenConfig.settings, [⟨0, "L1", true⟩, ⟨1, "L2", true⟩]⟩

theorem writes_carry_ttls_even :
    Stack.build evenConfig [("L1", true), ("L2", true)] = .ok evenStack ∧ evenConfig.defaultTtlMs ≠ 0 ∧
    (Session.cacheWork (.stacked evenStack) (.set "a" [7] .zero)).Traced fun told _ =>
      changesOf "a" told = [(0, .put (Record.encode [7]) (.ofMillis 300000)),
        (1, .put (Record.encode [7]) (.ofMillis 300000))] := by
  have hunit : evenConfig.jitter.inUnitInterval = true := by decide +kernel
  have hbuild : Stack.build evenConfig [("L1", true), ("L2", true)] = .ok evenStack := by
    simp only [Stack.build, hunit]
    rfl
  refine ⟨hbuild, by decide, ?_⟩
  have hwrites := (writes_carry_ttls hbuild (by decide) (.set "a" [7] .zero)).2.1
  refine hwrites.pays.mono fun told _ ⟨rows, hpays⟩ => ?_
  obtain ⟨-, rfl⟩ := hpays.exact (by decide +kernel)
  exact (hpays.explained "a").1 List.mem_cons_self

end StackedCache
