import StackedCache.Proofs.LoneCallers

/-!
# Errors of loaders

The caller of a loader gets its error, or the copy that a flight makes of it. A
copy reads like the error, with two exceptions: of a layer's error the causes
beyond the first are lost, and a codec error becomes a loader's.
-/

namespace StackedCache

open Simulation Concurrency

namespace CacheError

inductive Kind where
  | notFound
  | backend
  | timeout
  | config
  | codec
  | loader
  deriving DecidableEq

def kind : CacheError → Kind
  | .notFound => .notFound
  | .backend .. => .backend
  | .timeout .. => .timeout
  | .config _ => .config
  | .codec _ => .codec
  | .loader _ => .loader

/-- A caller sees no difference between the errors. -/
structure ReadsAs (copy e : CacheError) : Prop where
  kind : copy.kind = e.kind
  message : copy.message = e.message
  causes : copy.causes = e.causes
  isNotFound : copy.isNotFound = e.isNotFound
  isBackend : copy.isBackend = e.isBackend

/-- Some of the error is lost when it is copied. -/
inductive Lossy : CacheError → Prop
  | codec (error : CodecError) : Lossy (.codec error)
  | backend (layer : String) {error : Failure} (h : error.causes ≠ []) : Lossy (.backend layer error)

theorem ReadsAs.refl (e : CacheError) : e.ReadsAs e := ⟨rfl, rfl, rfl, rfl, rfl⟩

theorem share_readsAs_iff (e : CacheError) : e.share.ReadsAs e ↔ ¬e.Lossy := by
  cases e with
  | notFound => exact iff_of_true (.refl _) nofun
  | timeout layer after => exact iff_of_true (.refl _) nofun
  | config reason => exact iff_of_true (.refl _) nofun
  | codec error => exact iff_of_false (fun h => Kind.noConfusion h.kind) fun h => h (.codec error)
  -- The wrapper reads as the loader's own error, also if that one has been shared before.
  | loader error => exact iff_of_true ⟨rfl, rfl, rfl, rfl, rfl⟩ nofun
  | backend layer error =>
    constructor
    · rintro h (_ | ⟨_, hcauses⟩)
      exact hcauses (List.cons.inj h.causes).2.symm
    · intro h
      have hcauses : error.causes = [] := by
        by_contra hne
        exact h (.backend layer hne)
      exact ⟨rfl, rfl, congrArg (error.message :: ·) hcauses.symm, rfl, rfl⟩

end CacheError

-- ---------------------------------------------------------------------------
-- Loaders that fail
-- ---------------------------------------------------------------------------

section
variable {stack : Stack} {outages : Outages} {scene : Scene} {key : String} {e : CacheError}

theorem acts_remember_failed (loader : ScriptedLoader) (hidle : Idle scene.guard)
    (hnothing : ∀ tier ∈ stack.tiers, scene.reading outages (stack.fullKey key) tier = .nothing)
    (hloader : loader.single = .error e) (he : e.isNotFound = false) (options : RememberOptions) :
    ∃ after, Acts outages (stack.remember key loader options) scene [.load loader]
        (Stack.received (options.policy.getD stack.settings.policy) (.error e)) after ∧
      scene.Keeps (scene.stored after) := by
  have hrecord : stack.loadedRecord (options.ttl.getD .zero) scene.draws loader.single = none := by
    simp [Stack.loadedRecord, hloader, he]
  have houtcome : loader.outcome = .error e := by
    simp [ScriptedLoader.outcome, hloader, he]
  obtain ⟨after, hgo, -, hbecomes⟩ := Stack.acts_remember_miss hidle hnothing loader options hrecord
  rw [houtcome] at hgo
  exact ⟨after, hgo, hbecomes.alters.keeps⟩

end

/-- An error of a loader that is none of the not-found class, when no layer has a record of the key: the
loader is called once, nothing is written, and the caller gets an error that reads as the loader's,
unless single flight has made a copy of one that is lost in copying. What is lost then is known: a codec
error comes back whole as the error that a loader has failed with, and a layer's error keeps its
variant, its text and the first of its causes. -/
theorem remember_returns_error {stack : Stack} {outages : Outages} {scene : Scene} {key : String}
    {loader : ScriptedLoader} {e : CacheError} (hidle : Idle scene.guard)
    (hnothing : ∀ tier ∈ stack.tiers, scene.reading outages (stack.fullKey key) tier = .nothing)
    (hloader : loader.single = .error e) (he : e.isNotFound = false) (options : RememberOptions) :
    ∃ copy after, Acts outages (stack.remember key loader options) scene [.load loader] (.error copy) after ∧
      scene.Keeps (scene.stored after) ∧
      (copy.ReadsAs e ↔ ¬(options.policy.getD stack.settings.policy = .singleFlight ∧ e.Lossy)) ∧
      (options.policy.getD stack.settings.policy = .singleFlight → ∀ error, e = .codec error →
        copy.kind = .loader ∧ copy.message = "loader failed: " ++ e.message ∧
        copy.causes = e.message :: e.causes) ∧
      ∀ layer error, e = .backend layer error →
        copy.kind = .backend ∧ copy.message = e.message ∧ copy.causes.head? = e.causes.head? := by
  obtain ⟨after, hgo, hkeeps⟩ := acts_remember_failed loader hidle hnothing hloader he options
  unfold Stack.received at hgo
  cases hpolicy : options.policy.getD stack.settings.policy with
  | cacheAside =>
    rw [hpolicy] at hgo
    refine ⟨e, after, hgo, hkeeps, iff_of_true (.refl e) nofun, nofun, ?_⟩
    rintro layer error rfl
    exact ⟨rfl, rfl, rfl⟩
  | singleFlight =>
    rw [hpolicy] at hgo
    refine ⟨e.share, after, hgo, hkeeps, ?_, ?_, ?_⟩
    · simpa using e.share_readsAs_iff
    · rintro - error rfl
      exact ⟨rfl, rfl, rfl⟩
    · rintro layer error rfl
      exact ⟨rfl, rfl, rfl⟩

def corruptLoader : ScriptedLoader where
  key := ""
  single := .error (.codec ⟨.decode, "bad"⟩)

def unreachableLoader : ScriptedLoader where
  key := ""
  single := .error (.backend "L2" ⟨"unreachable", ["connection refused"]⟩)

theorem remember_returns_error_corrupt : ∃ copy after,
    Acts {} (emptyStack.remember "k" corruptLoader { policy := some .cacheAside }) emptyScene
      [.load corruptLoader] (.error copy) after ∧
    copy.ReadsAs (.codec ⟨.decode, "bad"⟩) := by
  have hnothing : ∀ tier ∈ emptyStack.tiers,
      emptyScene.reading {} (emptyStack.fullKey "k") tier = .nothing :=
    List.forall_mem_singleton.mpr rfl
  have hloader : corruptLoader.single = .error (.codec ⟨.decode, "bad"⟩) := rfl
  obtain ⟨copy, after, hgo, -, hreads, -⟩ :=
    remember_returns_error idle_new hnothing hloader rfl { policy := some .cacheAside }
  exact ⟨copy, after, hgo, hreads.mpr nofun⟩

/-- Under single flight, which is the default, these errors do not come back as they were. -/
theorem remember_rewraps_errors :
    (∃ copy after, Acts {} (emptyStack.remember "k" corruptLoader {}) emptyScene [.load corruptLoader]
        (.error copy) after ∧
      copy.kind ≠ .codec ∧
      copy.message = "loader failed: failed to encode cache record: record payload is corrupt: bad") ∧
    ∃ copy after, Acts {} (emptyStack.remember "k" unreachableLoader {}) emptyScene
        [.load unreachableLoader] (.error copy) after ∧
      copy.causes = ["unreachable"] := by
  have hnothing : ∀ tier ∈ emptyStack.tiers,
      emptyScene.reading {} (emptyStack.fullKey "k") tier = .nothing :=
    List.forall_mem_singleton.mpr rfl
  obtain ⟨after, hgo, -⟩ := acts_remember_failed corruptLoader idle_new hnothing rfl rfl {}
  obtain ⟨after', hgo', -⟩ := acts_remember_failed unreachableLoader idle_new hnothing rfl rfl {}
  exact ⟨⟨_, after, hgo, nofun, by decide⟩, _, after', hgo', rfl⟩

end StackedCache
