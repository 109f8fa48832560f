import StackedCache.Proofs.Concurrency.Keywise
import StackedCache.Proofs.Holdings
import StackedCache.Proofs.WorkTraces

/-!
# What lookups carry upwards

A call that gives a key no content can still put something under it: a lookup
copies a value that it has found into the layers above. Nothing else is put
there by such a call, whatever it is told, and what it answers shows what it
has found. So a call needs to know little of a key: which slots had what, which
have dropped it, and which could not be read.
-/

namespace StackedCache.Concurrency

open Simulation CacheProc

def LooksUp (key : String) : Work → Prop
  | .get k | .getValue k => k = key
  | .mget keys => key ∈ keys
  | _ => False

/-- The call gives the key no content. It may look the key up, and it may delete it. -/
def Refrains (key : String) (work : Work) : Prop := Spares key work ∨ work = .delete key

inductive Clue where
  | found (slot : Nat) (payload : Bytes)
  | removed (slot : Nat)
  | failed (slot : Nat) (e : CacheError)

inductive Shows (full : String) : CacheExchange → Clue → Prop
  | found {e : CacheExchange} {slot : Nat} {payload : Bytes} (h : Fetches e slot full (some payload)) :
      Shows full e (.found slot payload)
  | removed {slot : Nat} : Shows full ⟨.layer slot (.delete full), .ok ()⟩ (.removed slot)
  | failed {slot : Nat} {e : CacheError} :
      Shows full ⟨.layer slot (.get full), .error e⟩ (.failed slot e)

abbrev Clues : Type := Clue → Prop

def cluesIn (full : String) (told : List CacheExchange) : Clues :=
  fun clue => ∃ e ∈ told, Shows full e clue

/-- How the lookup of a key in some layers ends, by what it was shown. -/
inductive LookedIn (clues : Clues) (tiers : List Tier) : Except CacheError Lookup → Prop
  | miss : LookedIn clues tiers (.ok .miss)
  | failed {tier : Tier} {e : CacheError} (ht : tier ∈ tiers) (h : clues (.failed tier.slot e)) :
      LookedIn clues tiers (.error e)
  | found {tier : Tier} {payload : Bytes} {result : Except CacheError Lookup} (ht : tier ∈ tiers)
      (h : clues (.found tier.slot payload)) : LookedIn clues tiers result

def answerOf : Except CacheError Lookup → Answer
  | .ok found => .lookup found
  | .error e => .failed e

section
variable (stack : Stack) (key : String) (work : Work) (clues : Clues)

def FoundBelow (slot : Nat) (payload : Bytes) : Prop :=
  ∃ upper lower below, stack.tiers = upper ++ lower :: below ∧ (∃ tier ∈ upper, tier.slot = slot) ∧
    clues (.found lower.slot payload)

/-- What the request puts under the key is a copy that a lookup makes. -/
def Carries : CacheRequest ScriptedLoader → Prop
  | .layer slot op => ∀ payload ttl, op.Puts (stack.fullKey key) payload ttl →
    LooksUp key work ∧ FoundBelow stack clues slot payload
  | _ => True

/-- The call knows of all that it is shown, and puts copies only under the key. -/
def carrying : Discipline (CacheCalls ScriptedLoader) Clues where
  permits known r := Carries stack key work known r
  admits known r reply later := (∀ clue, known clue → later clue) ∧
    ∀ clue, Shows (stack.fullKey key) ⟨r, reply⟩ clue → later clue

/-- What the call must have been shown to answer so. -/
structure Concludes (answer : Answer) : Prop where
  deleted : work = .delete key → answer = .done → ∀ tier ∈ stack.tiers, clues (.removed tier.slot)
  read : work = .get key → ∃ result, LookedIn clues stack.tiers result ∧ answer = answerOf result

structure Bears (told : List CacheExchange) (answer : Answer) : Prop where
  changes : (∀ change ∈ changesOf (stack.fullKey key) told, change.2 = .removed) ∨
    LooksUp key work ∧ ∃ payload, stack.Copied told (stack.fullKey key) payload
  concludes : Concludes stack key work (cluesIn (stack.fullKey key) told) answer

end

section
variable {stack : Stack} {key full : String} {work : Work} {known later : Clues} {slot : Nat}
  {payload : Bytes} {answer : Answer} {told more : List CacheExchange} {clue : Clue}

theorem cluesIn_append (h : cluesIn full more clue) : cluesIn full (told ++ more) clue :=
  h.imp fun _ => And.imp_left (List.mem_append_right told)

theorem Shows.onFlight_eq {e : CacheExchange} (h : Shows full e clue) : e.1.onFlight = false := by
  cases h with
  | @found _ _ payload hfetches =>
    generalize some payload = found at hfetches
    cases hfetches <;> rfl
  | _ => rfl

theorem LookedIn.mono {tiers tiers' : List Tier} {result : Except CacheError Lookup}
    (h : LookedIn known tiers result) (hle : ∀ clue, known clue → later clue) (htiers : tiers ⊆ tiers') :
    LookedIn later tiers' result := by
  cases h with
  | miss => exact .miss
  | failed ht h => exact .failed (htiers ht) (hle _ h)
  | found ht h => exact .found (htiers ht) (hle _ h)

theorem FoundBelow.mono (h : FoundBelow stack known slot payload)
    (hle : ∀ slot, known (.found slot payload) → later (.found slot payload)) :
    FoundBelow stack later slot payload := by
  obtain ⟨upper, lower, below, htiers, hslot, hfound⟩ := h
  exact ⟨upper, lower, below, htiers, hslot, hle _ hfound⟩

theorem Carries.mono {r : CacheRequest ScriptedLoader} (h : Carries stack key work known r)
    (hle : ∀ clue, known clue → later clue) : Carries stack key work later r := by
  cases r with
  | layer slot op => exact fun payload ttl hputs => (h payload ttl hputs).imp_right (·.mono fun _ => hle _)
  | _ => trivial

theorem Concludes.mono (h : Concludes stack key work known answer)
    (hle : ∀ clue, known clue → later clue) : Concludes stack key work later answer := by
  refine ⟨fun hwork hdone tier htier => hle _ (h.deleted hwork hdone tier htier), fun hwork => ?_⟩
  obtain ⟨result, hlooked, hanswer⟩ := h.read hwork
  exact ⟨result, hlooked.mono hle (List.Subset.refl _), hanswer⟩

-- ---------------------------------------------------------------------------
-- Whole calls
-- ---------------------------------------------------------------------------

theorem traced_deleteEach_ok (full : String) (first : Except CacheError Unit) (tiers : List Tier) :
    (Stack.deleteEach full first tiers : CacheProc ScriptedLoader _).Traced fun told result =>
      result = .ok () → first = .ok () ∧ ∀ tier ∈ tiers, cluesIn full told (.removed tier.slot) := by
  induction tiers generalizing first with
  | nil => exact Proc.traced_pure fun hok => ⟨hok, List.forall_mem_nil _⟩
  | cons tier rest ih =>
    refine (traced_ask (.layer tier.slot (.delete full))).bind ?_
    rintro _ result rfl
    match result with
    | .ok () =>
      refine (ih first).mono fun more result hmore hok => ?_
      obtain ⟨hfirst, hrest⟩ := hmore hok
      refine ⟨hfirst, List.forall_mem_cons.mpr ⟨⟨_, List.mem_cons_self, .removed⟩, ?_⟩⟩
      exact fun tier htier => cluesIn_append (hrest tier htier)
    | .error e =>
      refine (traced_ask _).bind ?_
      rintro _ _ rfl
      refine (ih _).mono fun more result hmore hok => ?_
      obtain ⟨hfirst, -⟩ := hmore hok
      cases first <;> cases hfirst

theorem looked_stable (full : String) (given : String → Prop) (tiers : List Tier) :
    Stable given fun told result => LookedIn (cluesIn full told) tiers result :=
  fun _ _ _ _ h => h.mono (fun _ => cluesIn_append) (List.Subset.refl _)

theorem traced_readFrom_clues (full : String) (above below : List Tier) :
    (stack.readFrom full above below : CacheProc ScriptedLoader _).Traced fun told result =>
      LookedIn (cluesIn full told) below result := by
  induction below generalizing above with
  | nil =>
    have hstable := looked_stable full (fun _ => True) []
    exact traced_notice hstable _ (traced_count hstable _ (Proc.traced_pure .miss))
  | cons tier below ih =>
    refine (traced_ask (.layer tier.slot (.get full))).bind ?_
    rintro _ result rfl
    match result with
    | .error e =>
      exact Proc.traced_pure (.failed List.mem_cons_self ⟨_, List.mem_cons_self, .failed⟩)
    | .ok none =>
      refine (ih _).mono fun more result hmore => ?_
      exact hmore.mono (fun _ => cluesIn_append) (List.subset_cons_self ..)
    | .ok (some entry) =>
      -- the layer had something, whatever comes of it
      exact fun more result _ => .found List.mem_cons_self ⟨_, List.mem_cons_self, .found .get⟩

theorem Refrains.cases (h : Refrains key work) (hkey : key ∈ work.keys) :
    LooksUp key work ∨ work = .delete key := by
  refine h.imp_left fun hspares => ?_
  cases work with
  | get k => exact (List.mem_singleton.mp hkey).symm
  | getValue k => exact (List.mem_singleton.mp hkey).symm
  | mget keys => exact hkey
  | set k _ _ => exact absurd (List.mem_singleton.mp hkey).symm hspares
  | delete k => exact absurd (List.mem_singleton.mp hkey).symm hspares
  | remember k _ _ => exact absurd (List.mem_singleton.mp hkey).symm hspares
  | mset items _ =>
    obtain ⟨⟨_, value⟩, hrow, rfl⟩ := List.mem_map.mp hkey
    have hnone : items.get? _ = none := hspares
    rw [Table.get?_eq_some_iff.mpr hrow] at hnone
    cases hnone
  | mremember keys _ _ => exact absurd hkey hspares
  | _ => cases hkey

theorem LooksUp.dues_eq (h : LooksUp key work) (told : List CacheExchange) : stack.dues work told = [] := by
  have hlessons : stack.dues work told = told.flatMap (stack.lesson work) := by
    cases work <;> first | rfl | exact h.elim
  rw [hlessons, List.flatMap_eq_nil_iff]
  intro e _
  unfold Stack.lesson
  split <;> cases work <;> first | rfl | exact h.elim

theorem LooksUp.changes (h : LooksUp key work) (hconducts : stack.Conducts work told) (full : String) :
    (∀ change ∈ changesOf full told, change.2 = .removed) ∨ ∃ payload, stack.Copied told full payload := by
  obtain ⟨rows, hdrawn, hexplained⟩ := hconducts.settled
  have hnone : full ∉ rows.map Prod.fst := by
    rw [hdrawn.keys, h.dues_eq]
    exact List.not_mem_nil
  refine ((hexplained full).2 hnone).imp_right ?_
  exact fun ⟨payload, value, _, hcopied⟩ => ⟨payload, hcopied⟩

theorem traced_delete_changes (key : String) :
    (Session.cacheWork (.stacked stack) (.delete key)).Traced fun told _ =>
      ∀ change ∈ changesOf (stack.fullKey key) told, change.2 = .removed := by
  refine Proc.Traced.map ((Stack.traced_deleteEach Stack.named_singleton _ _).mono fun told _ h => ?_)
  rw [h.changes, removalsOf, if_pos rfl]
  exact List.forall_mem_map.mpr fun _ _ => rfl

theorem traced_concludes (stack : Stack) (key : String) (work : Work) :
    (Session.cacheWork (.stacked stack) work).Traced fun told answer =>
      Concludes stack key work (cluesIn (stack.fullKey key) told) answer := by
  cases work with
  | get k =>
    refine (traced_readFrom_clues (stack.fullKey k) [] stack.tiers).bind fun told result hlooked => ?_
    have hdone : (pure (answerOf result) : CacheProc ScriptedLoader Answer).Traced fun more answer =>
        Concludes stack key (.get k) (cluesIn (stack.fullKey key) (told ++ more)) answer := by
      refine Proc.traced_pure ⟨nofun, ?_⟩
      rintro ⟨⟩
      exact ⟨result, (List.append_nil told).symm ▸ hlooked, rfl⟩
    cases result <;> exact hdone
  | delete k =>
    refine Proc.Traced.map ((traced_deleteEach_ok (stack.fullKey k) (.ok ()) stack.tiers).mono ?_)
    refine fun told result hok => ⟨?_, nofun⟩
    rintro ⟨⟩ hanswer
    match result with
    | .ok () => exact (hok rfl).2
    | .error e => cases hanswer
  | _ => exact fun told answer _ => ⟨nofun, nofun⟩

theorem Refrains.traced (h : Refrains key work) :
    (Session.cacheWork (.stacked stack) work).Traced (Bears stack key work) := by
  intro told answer hends
  refine ⟨?_, traced_concludes stack key work told answer hends⟩
  have hconducts := Stack.conducts_work stack work told answer hends
  by_cases hkey : key ∈ work.keys
  · rcases h.cases hkey with hlooks | rfl
    · exact (hlooks.changes hconducts _).imp_right fun hcopied => ⟨hlooks, hcopied⟩
    · exact .inl (traced_delete_changes key told answer hends)
  · refine .inl ?_
    rw [changesOf_eq_nil hconducts.proper (Stack.not_named hkey)]
    exact List.forall_mem_nil _

theorem Bears.found (h : Bears stack key work told answer) {ttl : Duration}
    (hput : (slot, Change.put payload ttl) ∈ changesOf (stack.fullKey key) told) :
    LooksUp key work ∧ FoundBelow stack (cluesIn (stack.fullKey key) told) slot payload := by
  rcases h.changes with hremoved | ⟨hlooks, payload', upper, lower, below, htiers, hfetched, hchanges⟩
  · cases hremoved _ hput
  · rw [hchanges] at hput
    obtain ⟨tier, htier, heq⟩ := List.mem_map.mp hput
    cases heq
    obtain ⟨e, he, hfetches⟩ := hfetched
    exact ⟨hlooks, upper, lower, below, htiers, ⟨tier, htier, rfl⟩, e, he, .found hfetches⟩

-- ---------------------------------------------------------------------------
-- Calls on their way
-- ---------------------------------------------------------------------------

theorem change_of_puts {op : LayerOp} {ttl : Duration} (h : op.Puts full payload ttl) :
    op.change full = .put payload ttl := by
  cases h with
  | set => exact if_pos rfl
  | mset hrow => simp only [LayerOp.change, Table.get?_eq_some_iff.mpr hrow]

def refusing (r : CacheRequest ScriptedLoader) (s : Unit) : r.Reply × Unit := (r.refusal, s)

theorem not_fetches_refused {e : CacheExchange} (h : e.2 = e.1.refusal) :
    ¬Fetches e slot full (some payload) := by
  intro hfetches
  generalize hfound : some payload = found at hfetches
  cases hfetches with
  | get => cases h
  | mget _ => cases h

/-- At each of its requests a call could be refused all that follows. So what it puts somewhere, it
must have found before. -/
theorem keeps_carrying {p : CacheProc ScriptedLoader Answer} (seen : List CacheExchange)
    (hseen : ∀ clue, cluesIn (stack.fullKey key) seen clue → known clue)
    (h : ∀ more answer, p.Ends more answer → Bears stack key work (seen ++ more) answer) :
    p.Keeps (carrying stack key work) (Concludes stack key work) known := by
  induction p generalizing seen known with
  | done answer =>
    have hbears := h [] answer (.done answer)
    rw [List.append_nil] at hbears
    exact hbears.concludes.mono hseen
  | ask r next ih =>
    refine ⟨?_, fun reply later hlater => ih reply (seen ++ [⟨r, reply⟩]) ?_ ?_⟩
    · cases r with
      | layer slot op =>
        intro payload ttl hputs
        have hends := Proc.ends_told refusing (next (.error .notFound)) ()
        obtain ⟨hlooks, hfound⟩ := (h _ _ (.ask hends)).found
          (mem_changesOf (List.mem_append_right seen List.mem_cons_self) (change_of_puts hputs) (by simp))
        refine ⟨hlooks, hfound.mono fun lower ⟨e, he, hshows⟩ => ?_⟩
        cases hshows with
        | found hfetches =>
          refine hseen _ ⟨e, (List.mem_append.mp he).resolve_right fun hrefused => ?_, .found hfetches⟩
          rcases List.mem_cons.mp hrefused with rfl | hrefused
          · exact not_fetches_refused rfl hfetches
          · exact not_fetches_refused (Proc.told_reply hrefused) hfetches
      | _ => trivial
    · rintro clue ⟨e, he, hshows⟩
      rcases List.mem_append.mp he with he | he
      · exact hlater.1 clue (hseen clue ⟨e, he, hshows⟩)
      · exact hlater.2 clue (List.mem_singleton.mp he ▸ hshows)
    · intro more answer hends
      simpa using h (⟨r, reply⟩ :: more) answer (.ask hends)

theorem learns_carrying (stack : Stack) (key : String) (work : Work) :
    Learns (carrying stack key work) (fun known later => ∀ clue, known clue → later clue)
      fun known e => ∀ clue, Shows (stack.fullKey key) e clue → known clue where
  refl _ _ := id
  trans h h' clue hclue := h' clue (h clue hclue)
  admits := Iff.rfl
  kept hle hshown clue hshows := hle clue (hshown clue hshows)
  lookup _ _ _ _ hputs := (nomatch hputs)
  write {known later slot items ttl row payload} hpermits hle hmem payload' ttl' hputs := by
    generalize hfull : stack.fullKey key = full at hputs
    cases hputs with
    | set =>
      have hcarries := hpermits payload ttl (hfull ▸ .mset hmem)
      exact hcarries.imp_right (·.mono fun _ => hle _)
  gathered {known slot keys batch} hhits clue hshows := by
    cases hshows with
    | @found _ _ payload hfetches =>
      generalize hfound : some payload = found at hfetches
      cases hfetches with
      | mget _ =>
        obtain ⟨remaining, hshown⟩ := hhits _ payload hfound.symm
        exact hshown _ (.found .get)
  unread clue hshows := by
    cases hshows with
    | found hfetches => cases hfetches
  written clue hshows := by
    cases hshows with
    | found hfetches => cases hfetches

/-- A call that gives the key no content puts copies only under it, at each moment, and answers by
what it was shown. -/
theorem Refrains.keeps (h : Refrains key work) (each : Nat → Bool) :
    ((Session.cacheWork (.stacked stack) work).translate (slotwise each)).Keeps
      (carrying stack key work) (Concludes stack key work) fun _ => False := by
  refine (learns_carrying stack key work).keeps_slotwise ?_ each
  exact keeps_carrying [] (fun clue ⟨e, he, _⟩ => absurd he List.not_mem_nil) h.traced

end

end StackedCache.Concurrency
