import StackedCache.Proofs.LiveItems
import StackedCache.Proofs.Provenance

/-!
# Traces

A program that comes to its end leaves a trace: its exchanges in their order.
Of the trace of a call on a cache three things matter here: which keys it gives
to layers, what it gets from loaders and from draws, and what it changes under
each key. They add up along the parts of a call.
-/

namespace StackedCache

open Simulation

namespace Proc

variable {S T : Signature} {α β σ : Type}

-- ---------------------------------------------------------------------------
-- Programs
-- ---------------------------------------------------------------------------

def told (answer : (r : S.Request) → σ → S.Reply r × σ) : Proc S α → σ → List (Exchange S)
  | .done _, _ => []
  | .ask r next, s => ⟨r, (answer r s).1⟩ :: (next (answer r s).1).told answer (answer r s).2

theorem ends_told (answer : (r : S.Request) → σ → S.Reply r × σ) (p : Proc S α) (s : σ) :
    p.Ends (p.told answer s) (p.run answer s).1 := by
  induction p generalizing s with
  | done a => exact .done a
  | ask r next ih => exact .ask (ih _ _)

theorem told_reply {reply : (r : S.Request) → S.Reply r} {p : Proc S α} {s : σ} {e : Exchange S}
    (h : e ∈ p.told (fun r s => (reply r, s)) s) : e.2 = reply e.1 := by
  induction p generalizing s with
  | done a => cases h
  | ask r next ih =>
    rcases List.mem_cons.mp h with rfl | h
    · rfl
    · exact ih _ h

theorem told_bind (answer : (r : S.Request) → σ → S.Reply r × σ) (p : Proc S α) (f : α → Proc S β)
    (s : σ) :
    (p >>= f).told answer s =
      p.told answer s ++ (f (p.run answer s).1).told answer (p.run answer s).2 := by
  induction p generalizing s with
  | done a => rfl
  | ask r next ih => exact congrArg (_ :: ·) (ih _ _)

/-- A run comes to its result and to another state, and shows of its exchanges what is seen. -/
structure Goes {γ : Type} (answer : (r : S.Request) → σ → S.Reply r × σ)
    (view : Exchange S → List γ) (p : Proc S α) (s : σ) (seen : List γ) (a : α) (s' : σ) : Prop where
  seen : (p.told answer s).flatMap view = seen
  run : p.run answer s = (a, s')

section
variable {γ : Type} {answer : (r : S.Request) → σ → S.Reply r × σ} {view : Exchange S → List γ}
  {s s' s'' : σ} {seen more : List γ}

theorem goes_pure (a : α) : Goes answer view (pure a) s [] a s := ⟨rfl, rfl⟩

theorem Goes.bind {p : Proc S α} {f : α → Proc S β} {a : α} {b : β}
    (h : p.Goes answer view s seen a s') (hf : (f a).Goes answer view s' more b s'') :
    (p >>= f).Goes answer view s (seen ++ more) b s'' := by
  refine ⟨?_, ?_⟩
  · rw [told_bind, h.run, List.flatMap_append, h.seen, hf.seen]
  · rw [run_bind, h.run]
    exact hf.run

theorem Goes.unseen {p : Proc S α} {f : α → Proc S β} {a : α} {b : β}
    (h : p.Goes answer view s [] a s') (hf : (f a).Goes answer view s' seen b s'') :
    (p >>= f).Goes answer view s seen b s'' :=
  h.bind hf

theorem Goes.then_unseen {p : Proc S α} {f : α → Proc S β} {a : α} {b : β}
    (h : p.Goes answer view s seen a s') (hf : (f a).Goes answer view s' [] b s'') :
    (p >>= f).Goes answer view s seen b s'' :=
  List.append_nil seen ▸ h.bind hf

end

theorem Ends.of_bind {p : Proc S α} {f : α → Proc S β} {told : List (Exchange S)} {b : β}
    (h : (p >>= f).Ends told b) :
    ∃ first rest a, told = first ++ rest ∧ p.Ends first a ∧ (f a).Ends rest b := by
  induction p generalizing told with
  | done a => exact ⟨[], told, a, rfl, .done a, h⟩
  | ask r next ih =>
    cases h with
    | @ask _ _ reply _ _ h =>
      obtain ⟨first, rest, a, rfl, hfirst, hrest⟩ := ih reply h
      exact ⟨⟨r, reply⟩ :: first, rest, a, rfl, .ask hfirst, hrest⟩

/-- Each trace of the program, with what it ends with, is as `post` says. -/
def Traced (p : Proc S α) (post : List (Exchange S) → α → Prop) : Prop :=
  ∀ told a, p.Ends told a → post told a

section
variable {p : Proc S α} {post mid : List (Exchange S) → α → Prop}

theorem Traced.bind {f : α → Proc S β} {post : List (Exchange S) → β → Prop} (h : p.Traced mid)
    (hf : ∀ told a, mid told a → (f a).Traced fun more b => post (told ++ more) b) :
    (p >>= f).Traced post := by
  intro told b hends
  obtain ⟨first, rest, a, rfl, hfirst, hrest⟩ := hends.of_bind
  exact hf first a (h first a hfirst) rest b hrest

theorem Traced.mono {P Q : List (Exchange S) → α → Prop} (h : p.Traced P)
    (hpost : ∀ told a, P told a → Q told a) : p.Traced Q :=
  fun told a hends => hpost told a (h told a hends)

theorem traced_pure {a : α} (h : post [] a) : (pure a : Proc S α).Traced post := by
  intro told b hends
  cases hends
  exact h

theorem Traced.then_pure {post : List (Exchange S) → Prop} {f : α → Proc S β}
    (h : p.Traced fun told _ => post told) (hf : ∀ a, ∃ b, f a = pure b) :
    (p >>= f).Traced fun told _ => post told := by
  refine h.bind fun told a htold => ?_
  obtain ⟨b, hb⟩ := hf a
  rw [hb]
  exact traced_pure ((List.append_nil told).symm ▸ htold)

theorem Traced.map {f : α → β} {post : List (Exchange S) → β → Prop}
    (h : p.Traced fun told a => post told (f a)) : (f <$> p).Traced post := by
  rw [map_eq]
  exact h.bind fun told a htold => traced_pure ((List.append_nil told).symm ▸ htold)

theorem traced_request (r : S.Request) :
    (request r).Traced fun told reply => told = [⟨r, reply⟩] := by
  intro told reply hends
  cases hends with
  | ask h =>
    cases h
    rfl

end

end Proc

-- ---------------------------------------------------------------------------
-- Requests
-- ---------------------------------------------------------------------------

namespace CacheRequest

variable {Loader : Type}

def Proper (given : String → Prop) : CacheRequest Loader → Prop
  | .layer _ op => op.keys ≠ [] ∧ ∀ key ∈ op.keys, given key
  | _ => True

def isInput : CacheRequest Loader → Bool
  | .load _ | .loadMany .. | .draw _ => true
  | _ => false

def changes (key : String) : CacheRequest Loader → List (Nat × Change)
  | .layer slot op => if op.change key = .kept then [] else [(slot, op.change key)]
  | _ => []

/-- The reply that tells nothing: layers and loaders fail, and no flight has landed. -/
def refusal : (r : CacheRequest Loader) → r.Reply
  | .layer .. | .load _ | .loadMany .. => .error .notFound
  | .draw _ => (0 : Rat)
  | .join key => ⟨key, 0, 0⟩
  | .turn _ => none
  | .close _ | .land .. | .leave _ | .notice _ | .count _ => ()

end CacheRequest

def inputsOf (told : List CacheExchange) : List CacheExchange := told.filter (·.1.isInput)

def changesOf (key : String) (told : List CacheExchange) : List (Nat × Change) :=
  told.flatMap (·.1.changes key)

inductive ReadFails : CacheExchange → Prop
  | get {slot : Nat} {key : String} {e : CacheError} : ReadFails ⟨.layer slot (.get key), .error e⟩
  | mget {slot : Nat} {keys : List String} {e : CacheError} :
      ReadFails ⟨.layer slot (.mget keys), .error e⟩

/-- What rows put into layers under a key, each row with a time to live of its own. -/
def putsOf (tiers : List Tier) (rows : List (String × Bytes × Duration)) (key : String) :
    List (Nat × Change) :=
  match Table.lookup key rows with
  | some (payload, ttl) => tiers.map fun tier => (tier.slot, .put payload ttl)
  | none => []

def removalsOf (tiers : List Tier) (key k : String) : List (Nat × Change) :=
  if key = k then tiers.map fun tier => (tier.slot, .removed) else []

structure Comes (given : String → Prop) (inputs : List CacheExchange)
    (changes : String → List (Nat × Change)) (told : List CacheExchange) : Prop where
  proper : ∀ e ∈ told, e.1.Proper given
  inputs : inputsOf told = inputs
  changes : ∀ key, changesOf key told = changes key

/-- The part changes nothing, and gets nothing from outside of the layers. -/
abbrev Quiet (given : String → Prop) (told : List CacheExchange) : Prop :=
  Comes given [] (fun _ => []) told

section
variable {given given' : String → Prop} {key : String} {told more : List CacheExchange}
  {inputs inputs' : List CacheExchange} {changes changes' : String → List (Nat × Change)}

@[simp]
theorem inputsOf_append : inputsOf (told ++ more) = inputsOf told ++ inputsOf more :=
  List.filter_append ..

@[simp]
theorem changesOf_append : changesOf key (told ++ more) = changesOf key told ++ changesOf key more :=
  List.flatMap_append ..

theorem CacheRequest.Proper.mono {r : CacheRequest ScriptedLoader} (h : r.Proper given)
    (hgiven : ∀ key, given key → given' key) : r.Proper given' := by
  cases r with
  | layer slot op => exact ⟨h.1, fun key hkey => hgiven key (h.2 key hkey)⟩
  | _ => trivial

theorem CacheRequest.Proper.changes_eq {r : CacheRequest ScriptedLoader} (h : r.Proper given)
    (hkey : ¬given key) : r.changes key = [] := by
  cases r with
  | layer slot op => exact if_pos (LayerOp.change_kept fun hmem => hkey (h.2 key hmem))
  | _ => rfl

theorem changesOf_eq_nil (h : ∀ e ∈ told, e.1.Proper given) (hkey : ¬given key) :
    changesOf key told = [] :=
  List.flatMap_eq_nil_iff.mpr fun e he => (h e he).changes_eq hkey

theorem mem_changesOf {slot : Nat} {op : LayerOp}
    {reply : (CacheRequest.layer slot op : CacheRequest ScriptedLoader).Reply}
    {change : Change} (h : ⟨.layer slot op, reply⟩ ∈ told) (hchange : op.change key = change)
    (hkept : change ≠ .kept) : (slot, change) ∈ changesOf key told := by
  refine List.mem_flatMap.mpr ⟨_, h, ?_⟩
  simp [CacheRequest.changes, hchange, hkept]

theorem Comes.nil : Quiet given [] := ⟨List.forall_mem_nil _, rfl, fun _ => rfl⟩

theorem Comes.append (h : Comes given inputs changes told) (h' : Comes given inputs' changes' more) :
    Comes given (inputs ++ inputs') (fun key => changes key ++ changes' key) (told ++ more) := by
  refine ⟨List.forall_mem_append.mpr ⟨h.proper, h'.proper⟩, ?_, fun key => ?_⟩
  · rw [inputsOf_append, h.inputs, h'.inputs]
  · rw [changesOf_append, h.changes, h'.changes]

theorem Comes.after (h' : Comes given inputs changes more) (h : Quiet given told) :
    Comes given inputs changes (told ++ more) :=
  h.append h'

theorem Comes.before (h : Comes given inputs changes told) (h' : Quiet given more) :
    Comes given inputs changes (told ++ more) := by
  have hboth := h.append h'
  simpa only [List.append_nil] using hboth

theorem Comes.congr (h : Comes given inputs changes told)
    (hchanges : ∀ key, changes key = changes' key) : Comes given inputs changes' told :=
  ⟨h.proper, h.inputs, fun key => (h.changes key).trans (hchanges key)⟩

theorem putsOf_cons (tier : Tier) (tiers : List Tier) (rows : List (String × Bytes × Duration))
    (key : String) :
    putsOf (tier :: tiers) rows key = putsOf [tier] rows key ++ putsOf tiers rows key := by
  unfold putsOf
  cases Table.lookup key rows <;> rfl

theorem putsOf_no_tiers (rows : List (String × Bytes × Duration)) : putsOf [] rows key = [] := by
  unfold putsOf
  cases Table.lookup key rows <;> rfl

theorem putsOf_single (tiers : List Tier) (payload : Bytes) (ttl : Duration) :
    putsOf tiers [(key, payload, ttl)] key = tiers.map fun tier => (tier.slot, .put payload ttl) := by
  simp [putsOf, Table.lookup]

theorem putsOf_other {k : String} (h : k ≠ key) (tiers : List Tier) (payload : Bytes)
    (ttl : Duration) : putsOf tiers [(key, payload, ttl)] k = [] := by
  simp [putsOf, Table.lookup, Ne.symm h]

theorem putsOf_row (tiers : List Tier) {row : String × Bytes × Duration}
    {rows : List (String × Bytes × Duration)} (hnew : row.1 ∉ rows.map Prod.fst) (key : String) :
    putsOf tiers (row :: rows) key = putsOf tiers [row] key ++ putsOf tiers rows key := by
  unfold putsOf
  by_cases hkey : row.1 = key
  · subst hkey
    simp [Table.lookup, Table.lookup_eq_none hnew]
  · simp [Table.lookup, hkey]

theorem Comes.row {tiers : List Tier} {row : String × Bytes × Duration}
    {rows : List (String × Bytes × Duration)}
    (h : Comes given inputs (putsOf tiers [row]) told) (h' : Comes given inputs' (putsOf tiers rows) more)
    (hnew : row.1 ∉ rows.map Prod.fst) :
    Comes given (inputs ++ inputs') (putsOf tiers (row :: rows)) (told ++ more) :=
  (h.append h').congr fun key => (putsOf_row tiers hnew key).symm

end

-- ---------------------------------------------------------------------------
-- Programs of one request
-- ---------------------------------------------------------------------------

def Stable {β : Type} (given : String → Prop) (post : List CacheExchange → β → Prop) : Prop :=
  ∀ told more b, Quiet given told → post more b → post (told ++ more) b

section
variable {α β : Type} {given : String → Prop} {p : CacheProc ScriptedLoader α} {key : String}
  {post : List CacheExchange → β → Prop}

theorem traced_ask (r : CacheRequest ScriptedLoader) :
    (CacheProc.ask r).Traced fun told reply => told = [⟨r, reply⟩] :=
  Proc.traced_request (S := CacheCalls ScriptedLoader) r

theorem Comes.stable {inputs : List CacheExchange} {changes : String → List (Nat × Change)} :
    Stable given fun told (_ : β) => Comes given inputs changes told :=
  fun _ _ _ hquiet h => h.after hquiet

theorem Stable.and {Q : β → Prop} (h : Stable given post) :
    Stable given fun told b => post told b ∧ Q b :=
  fun told more b hquiet hmore => ⟨h told more b hquiet hmore.1, hmore.2⟩

theorem Proc.Traced.after {told : List CacheExchange} {p : CacheProc ScriptedLoader β}
    (h : p.Traced post) (hquiet : Quiet given told) (hstable : Stable given post) :
    p.Traced fun more b => post (told ++ more) b :=
  h.mono fun more b hmore => hstable told more b hquiet hmore

theorem Proc.Traced.of_quiet {p : CacheProc ScriptedLoader β}
    (h : p.Traced fun told _ => Quiet given told)
    (hpost : ∀ told b, Quiet given told → post told b) : p.Traced post :=
  h.mono hpost

theorem quiet_exchange {r : CacheRequest ScriptedLoader} (hproper : r.Proper given)
    (hinput : r.isInput = false) (hchanges : ∀ key, r.changes key = []) (reply : r.Reply) :
    Quiet given [⟨r, reply⟩] := by
  refine ⟨List.forall_mem_singleton.mpr hproper, ?_, fun key => ?_⟩
  · simp [inputsOf, hinput]
  · simp [changesOf, hchanges]

/-- A request apart from layers, loaders and draws makes no difference. -/
theorem traced_aside {r : CacheRequest ScriptedLoader} {f : r.Reply → CacheProc ScriptedLoader β}
    (hproper : r.Proper given) (hinput : r.isInput = false) (hchanges : ∀ key, r.changes key = [])
    (hstable : Stable given post) (h : ∀ reply, (f reply).Traced post) :
    (CacheProc.ask r >>= f).Traced post := by
  refine (traced_ask r).bind ?_
  rintro _ reply rfl
  exact (h reply).after (quiet_exchange hproper hinput hchanges reply) hstable

theorem traced_notice {f : Unit → CacheProc ScriptedLoader β} (hstable : Stable given post)
    (n : Notice) (h : (f ()).Traced post) : (CacheProc.notice n >>= f).Traced post :=
  traced_aside trivial rfl (fun _ => rfl) hstable fun _ => h

theorem traced_count {f : Unit → CacheProc ScriptedLoader β} (hstable : Stable given post)
    (c : Count) (h : (f ()).Traced post) : (CacheProc.count c >>= f).Traced post :=
  traced_aside trivial rfl (fun _ => rfl) hstable fun _ => h

theorem traced_setIn (h : given key) (tier : Tier) (payload : Bytes) (ttl : Duration) :
    (CacheProc.setIn tier key payload ttl : CacheProc ScriptedLoader _).Traced fun told _ =>
      Comes given [] (putsOf [tier] [(key, payload, ttl)]) told := by
  refine (traced_ask _).mono ?_
  rintro _ reply rfl
  refine ⟨List.forall_mem_singleton.mpr ⟨List.cons_ne_nil _ _, ?_⟩, rfl, fun k => ?_⟩
  · exact List.forall_mem_singleton.mpr h
  · simp only [changesOf, List.flatMap_singleton, CacheRequest.changes, LayerOp.change, putsOf,
      Table.lookup]
    by_cases hkey : key = k <;> simp [hkey]

end

end StackedCache
