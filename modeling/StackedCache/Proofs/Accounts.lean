import StackedCache.Proofs.Concurrency.Protocol
import StackedCache.Proofs.Provenance
import StackedCache.Proofs.Settings

/-!
# Accounts of calls

A call on a cache writes nothing of its own: each write is accounted for by
what the call was given, by what its loader told it, or by what it has read
under the same key in a lower layer. This holds whatever the layers, the
loaders and the flights answer, so it is a matter of the exchanges alone.
-/

namespace StackedCache

open Simulation Concurrency CacheProc

-- ---------------------------------------------------------------------------
-- Scans of the layers
-- ---------------------------------------------------------------------------

section
variable (stack : Stack) (told : List CacheExchange)

/-- Before it touched the key, the call has found no value for it in any of these layers. -/
structure Scanned (key : String) (above : List Tier) : Prop where
  untouched : Untouched key told
  passed {tier : Tier} : tier ∈ above → ∃ e ∈ told, ∃ found, Fetches e tier.slot key found ∧
    ∀ value, found.bind Record.decode ≠ some (.positive value)

/-- A scan for the key has come past the layers `above` and found the payload in the next. -/
def Sighted (key : String) (payload : Bytes) (above : List Tier) : Prop :=
  ∃ lower below seen, stack.tiers = above ++ lower :: below ∧ seen <+: told ∧
    Scanned seen key above ∧ ∃ e ∈ seen, Fetches e lower.slot key (some payload)

variable (work : Work)

def Brought (key : String) (content : Option Bytes) : Prop :=
  Given work key content ∨ ∃ e ∈ told, Learned work e key content

/-- What accounts for a write of a payload to a slot, under a key and for a time. -/
inductive Justified : Nat → String → Bytes → Duration → Prop
  | brought {slot : Nat} {key : String} {content : Option Bytes} {ttl : Duration}
      (h : Brought told work key content) (hlasting : stack.Usable → ttl.isZero = false) :
      Justified slot (stack.fullKey key) (Record.payloadOf content) ttl
  | copied {tier : Tier} {above : List Tier} {key : String} {payload : Bytes} {value : Option Bytes}
      (h : Sighted stack told key payload above) (htier : tier ∈ above)
      (hdecode : Record.decode payload = some (.positive value)) :
      Justified tier.slot key payload stack.settings.defaultTtl

/-- How the call has come to a content that it answers with. -/
inductive Obtained (key : String) : Option Bytes → Prop
  | sighted {payload : Bytes} {above : List Tier} {record : Record}
      (h : Sighted stack told (stack.fullKey key) payload above)
      (hdecode : Record.decode payload = some record) : Obtained key record.content
  | shared {seat : Seat} {value : Bytes} {loader : ScriptedLoader} {options : RememberOptions}
      (hwork : work = .remember key loader options) (hseat : seat.key = stack.fullKey key)
      (h : ⟨.turn seat, some (.ok value)⟩ ∈ told) : Obtained key (some value)
  | learned {e : CacheExchange} {content : Option Bytes} (he : e ∈ told)
      (h : Learned work e key content) : Obtained key content

def Accountable : CacheRequest ScriptedLoader → Prop
  | .layer slot (.set key payload ttl) => Justified stack told work slot key payload ttl
  | .layer slot (.mset items ttl) =>
    ∀ key payload, (key, payload) ∈ items.rows → Justified stack told work slot key payload ttl
  | .land seat outcome => ∀ value, outcome = .ok value →
    ∃ key, seat.key = stack.fullKey key ∧ Obtained stack told work key (some value)
  | _ => True

end

section
variable {stack : Stack} {told told' : List CacheExchange} {work : Work} {key : String}
  {payload : Bytes} {above : List Tier} {content : Option Bytes}

theorem Sighted.later (h : Sighted stack told key payload above) (hle : told <+: told') :
    Sighted stack told' key payload above := by
  obtain ⟨lower, below, seen, htiers, hseen, hscan⟩ := h
  exact ⟨lower, below, seen, htiers, hseen.trans hle, hscan⟩

theorem Brought.later (h : Brought told work key content) (hle : told <+: told') :
    Brought told' work key content :=
  h.imp_right fun ⟨e, he, hlearned⟩ => ⟨e, hle.mem he, hlearned⟩

theorem Obtained.later (h : Obtained stack told work key content) (hle : told <+: told') :
    Obtained stack told' work key content := by
  cases h with
  | sighted h hdecode => exact .sighted (h.later hle) hdecode
  | shared hwork hseat h => exact .shared hwork hseat (hle.mem h)
  | learned he h => exact .learned (hle.mem he) h

theorem scanned_nil (h : Untouched key told) : Scanned told key [] :=
  ⟨h, fun ht => absurd ht List.not_mem_nil⟩

theorem Scanned.pass {tier : Tier} (h : Scanned told key above) {e : CacheExchange} (he : e ∈ told)
    {found : Option Bytes} (hfound : Fetches e tier.slot key found)
    (hnone : ∀ value, found.bind Record.decode ≠ some (.positive value)) :
    Scanned told key (above ++ [tier]) := by
  refine ⟨h.untouched, fun ht => ?_⟩
  rcases List.mem_append.mp ht with ht | ht
  · exact h.passed ht
  · obtain rfl := List.mem_singleton.mp ht
    exact ⟨e, he, found, hfound, hnone⟩

theorem Scanned.later {more : List CacheExchange} (h : Scanned told key above)
    (huntouched : Untouched key more) : Scanned (told ++ more) key above := by
  refine ⟨h.untouched.append huntouched, fun ht => ?_⟩
  obtain ⟨e, he, hpassed⟩ := h.passed ht
  exact ⟨e, List.mem_append_left _ he, hpassed⟩

end

-- ---------------------------------------------------------------------------
-- The discipline
-- ---------------------------------------------------------------------------

/-- What a call has been told, and where it stands with its flight. -/
structure Account where
  told : List CacheExchange
  stance : Stance

/-- Each request is accounted for. The replies are arbitrary. -/
def accounting (stack : Stack) (work : Work) : Discipline (CacheCalls ScriptedLoader) Account where
  permits now r := flightProtocol.permits now.stance r ∧ Accountable stack now.told work r
  admits now r reply later :=
    flightProtocol.admits now.stance r reply later.stance ∧ later.told = now.told ++ [⟨r, reply⟩]

namespace Account

/-- The call is outside of flights, or leads one. -/
def Free (now : Account) : Prop := now.stance = .outside ∨ ∃ seat, now.stance = .leading seat

structure Before (touched : String → Prop) (now later : Account) : Prop where
  stance : later.stance = now.stance
  told : ∃ more, later.told = now.told ++ more ∧ ∀ key, ¬touched key → Untouched key more

variable {touched touched' : String → Prop} {now mid later : Account} {key : String}

theorem Before.refl (touched : String → Prop) (now : Account) : Before touched now now :=
  ⟨rfl, [], by simp, fun _ _ => List.forall_mem_nil _⟩

theorem Before.trans (h : Before touched now mid) (h' : Before touched mid later) :
    Before touched now later := by
  obtain ⟨more, hmore, huntouched⟩ := h.told
  obtain ⟨more', hmore', huntouched'⟩ := h'.told
  refine ⟨h'.stance.trans h.stance, more ++ more', ?_, fun key hkey => ?_⟩
  · rw [hmore', hmore, List.append_assoc]
  · exact (huntouched key hkey).append (huntouched' key hkey)

theorem Before.weaken (h : Before touched now later) (hle : ∀ key, touched key → touched' key) :
    Before touched' now later :=
  ⟨h.stance, h.told.imp fun _ ⟨hmore, hall⟩ => ⟨hmore, fun key hkey => hall key (mt (hle key) hkey)⟩⟩

theorem Before.earlier (h : Before touched now later) : now.told <+: later.told := by
  obtain ⟨more, hmore, -⟩ := h.told
  exact ⟨more, hmore.symm⟩

theorem Before.free (h : Before touched now later) (hfree : now.Free) : later.Free := by
  unfold Free
  rw [h.stance]
  exact hfree

theorem Before.scanned (h : Before touched now later) (hkey : ¬touched key) {above : List Tier}
    (hscan : Scanned now.told key above) : Scanned later.told key above := by
  obtain ⟨more, hmore, hall⟩ := h.told
  exact hmore ▸ hscan.later (hall key hkey)

theorem Before.untouched (h : Before touched now later) (hkey : ¬touched key)
    (huntouched : Untouched key now.told) : Untouched key later.told := by
  obtain ⟨more, hmore, hall⟩ := h.told
  exact hmore ▸ huntouched.append (hall key hkey)

end Account

open Account

/-- The program is accountable and ends with what meets `post`, having touched certain keys only. -/
def Accounts {α : Type} (stack : Stack) (work : Work) (touched : String → Prop) (now : Account)
    (p : CacheProc ScriptedLoader α) (post : Account → α → Prop) : Prop :=
  p.Keeps (accounting stack work) (fun later a => now.Before touched later ∧ post later a) now

abbrev noKey : String → Prop := fun _ => False

abbrev anyKey : String → Prop := fun _ => True

section
variable {α β : Type} {stack : Stack} {work : Work} {touched touched' : String → Prop} {now : Account}
  {p : CacheProc ScriptedLoader α} {f : α → CacheProc ScriptedLoader β} {post : Account → α → Prop}
  {next : Account → β → Prop}

theorem accounts_pure {a : α} (h : post now a) :
    Accounts stack work touched now (pure a : CacheProc ScriptedLoader α) post :=
  ⟨.refl touched now, h⟩

theorem Accounts.andThen {post' : Account → β → Prop} (h : Accounts stack work touched now p post)
    (hf : ∀ mid a, now.Before touched mid → post mid a → (f a).Keeps (accounting stack work) post' mid) :
    (p >>= f).Keeps (accounting stack work) post' now :=
  Proc.Keeps.bind h fun mid a ⟨hmid, ha⟩ => hf mid a hmid ha

theorem Accounts.bind (h : Accounts stack work touched now p post)
    (hf : ∀ mid a, now.Before touched mid → post mid a → Accounts stack work touched mid (f a) next) :
    Accounts stack work touched now (p >>= f) next := by
  refine h.andThen fun mid a hmid ha => ?_
  exact Proc.Keeps.mono (hf mid a hmid ha) fun _ _ h => ⟨hmid.trans h.1, h.2⟩

theorem Accounts.seq (h : Accounts stack work touched now p post)
    (hf : ∀ mid a, now.Before touched mid → post mid a → Accounts stack work anyKey mid (f a) next) :
    Accounts stack work anyKey now (p >>= f) next := by
  refine h.andThen fun mid a hmid ha => ?_
  refine Proc.Keeps.mono (hf mid a hmid ha) fun _ _ h => ⟨Before.trans ?_ h.1, h.2⟩
  exact hmid.weaken fun _ _ => trivial

theorem Accounts.quiet (h : Accounts stack work noKey now p post)
    (hf : ∀ mid a, now.Before noKey mid → post mid a → Accounts stack work anyKey mid (f a) next) :
    Accounts stack work anyKey now (p >>= f) next :=
  h.seq hf

theorem Accounts.mono {post' : Account → α → Prop} (h : Accounts stack work touched now p post)
    (hpost : ∀ later a, post later a → post' later a) :
    Accounts stack work touched now p post' :=
  Proc.Keeps.mono h fun _ _ h => ⟨h.1, hpost _ _ h.2⟩

end

-- ---------------------------------------------------------------------------
-- Single requests
-- ---------------------------------------------------------------------------

section
variable {stack : Stack} {work : Work} {touched : String → Prop} {now : Account} {key : String}

theorem accounts_ask {r : CacheRequest ScriptedLoader} (hr : r.onFlight = false) (hfree : now.Free)
    (hok : Accountable stack now.told work r) (htouched : ∀ key, r.Touches key → touched key) :
    Accounts stack work touched now (CacheProc.ask r) fun later reply =>
      later.told = now.told ++ [⟨r, reply⟩] := by
  refine ⟨⟨(permits_own hr).mpr hfree, hok⟩, ?_⟩
  rintro reply later ⟨hstance, htold⟩
  refine ⟨⟨(admits_own hr).mp hstance, [⟨r, reply⟩], htold, fun key hkey e he => ?_⟩, htold⟩
  rw [List.mem_singleton.mp he]
  exact mt (htouched key) hkey

theorem accounts_notice (hfree : now.Free) (n : Notice) :
    Accounts stack work touched now (notice n : CacheProc ScriptedLoader Unit) fun _ _ => True :=
  (accounts_ask (r := .notice n) rfl hfree trivial fun _ h => h.elim).mono fun _ _ _ => trivial

theorem accounts_count (hfree : now.Free) (c : Count) :
    Accounts stack work touched now (count c : CacheProc ScriptedLoader Unit) fun _ _ => True :=
  (accounts_ask (r := .count c) rfl hfree trivial fun _ h => h.elim).mono fun _ _ _ => trivial

theorem accounts_getFrom (hfree : now.Free) (tier : Tier) :
    Accounts stack work touched now (getFrom tier key : CacheProc ScriptedLoader _)
      fun later result => ∀ found, result = .ok found →
        ∃ e ∈ later.told, Fetches e tier.slot key (found.map Entry.payload) := by
  refine (accounts_ask (r := .layer tier.slot (.get key)) rfl hfree trivial fun _ h => h.elim).mono ?_
  rintro later result htold found rfl
  exact ⟨_, htold ▸ List.mem_append_right _ List.mem_cons_self, .get⟩

theorem accounts_setIn (hfree : now.Free) {tier : Tier} {payload : Bytes} {ttl : Duration}
    (h : Justified stack now.told work tier.slot key payload ttl) (htouched : touched key) :
    Accounts stack work touched now (setIn tier key payload ttl : CacheProc ScriptedLoader _)
      fun _ _ => True := by
  refine (accounts_ask (r := .layer tier.slot (.set key payload ttl)) rfl hfree h ?_).mono
    fun _ _ _ => trivial
  rintro k rfl
  exact htouched

theorem accounts_jittered (hfree : now.Free) {ttl : Duration}
    (h : stack.Usable → ttl.isZero = false) :
    Accounts stack work touched now (stack.jittered ttl : CacheProc ScriptedLoader Duration)
      fun _ result => stack.Usable → result.isZero = false := by
  unfold Stack.jittered
  cases Jitter.spread? stack.settings.jitter with
  | none => exact accounts_pure h
  | some spread =>
    refine (accounts_ask (r := .draw spread) rfl hfree trivial fun _ h => h.elim).bind ?_
    exact fun _ delta _ _ => accounts_pure fun _ => Jitter.scale_isZero ..

-- ---------------------------------------------------------------------------
-- Reading
-- ---------------------------------------------------------------------------

theorem accounts_backfill (hfree : now.Free) {payload : Bytes} {value : Option Bytes}
    {above tiers : List Tier} (h : Sighted stack now.told key payload above)
    (hdecode : Record.decode payload = some (.positive value)) (htiers : tiers ⊆ above) :
    Accounts stack work anyKey now
      (stack.backfill key payload tiers : CacheProc ScriptedLoader Unit) fun _ _ => True := by
  induction tiers generalizing now with
  | nil => exact accounts_pure trivial
  | cons tier rest ih =>
    obtain ⟨htier, hrest⟩ := List.cons_subset.mp htiers
    refine (accounts_setIn hfree (.copied h htier hdecode) trivial).bind fun mid result hmid _ => ?_
    have hgo {late : Account} (hlate : mid.Before anyKey late) :=
      ih (hlate.free (hmid.free hfree)) (h.later (hmid.trans hlate).earlier) hrest
    cases result <;> exact (accounts_notice (hmid.free hfree) _).bind fun _ _ hlate _ => hgo hlate

inductive Backed (stack : Stack) (told : List CacheExchange) (key : String) : Lookup → Prop
  | hit {payload : Bytes} {above : List Tier} {value : Option Bytes}
      (h : Sighted stack told key payload above)
      (hdecode : Record.decode payload = some (.positive value)) :
      Backed stack told key (.hit (Record.positive value).value)
  | negative {payload : Bytes} {above : List Tier} (h : Sighted stack told key payload above)
      (hdecode : Record.decode payload = some .negative) : Backed stack told key .negative
  | miss (h : Untouched key told) : Backed stack told key .miss

theorem accounts_readFrom (hfree : now.Free) {above below : List Tier}
    (htiers : stack.tiers = above ++ below) (hscan : Scanned now.told key above) :
    Accounts stack work anyKey now
      (stack.readFrom key above below : CacheProc ScriptedLoader _)
      fun later result => ∀ found, result = .ok found → Backed stack later.told key found := by
  induction below generalizing now above with
  | nil =>
    refine (accounts_notice hfree _).quiet fun mid _ hmid _ => ?_
    refine (accounts_count (hmid.free hfree) _).quiet fun late _ hlate _ => accounts_pure ?_
    rintro found ⟨⟩
    exact .miss ((hmid.trans hlate).untouched id hscan.untouched)
  | cons tier below ih =>
    have hrest : stack.tiers = (above ++ [tier]) ++ below := by simpa using htiers
    refine (accounts_getFrom hfree tier).quiet fun mid result hmid hfetches => ?_
    have hfree := hmid.free hfree
    have hscan := hmid.scanned id hscan
    cases result with
    | error e => exact accounts_pure (by simp)
    | ok found =>
      obtain ⟨e, he, hfound⟩ := hfetches found rfl
      cases found with
      | none => exact ih hfree hrest (hscan.pass he hfound (by simp))
      | some entry =>
        have hsighted : Sighted stack mid.told key entry.payload above :=
          ⟨tier, below, mid.told, htiers, List.prefix_rfl, hscan, e, he, hfound⟩
        cases hdecode : Record.decode entry.payload with
        | none =>
          simp only [hdecode]
          refine (accounts_notice hfree _).quiet fun late _ hlate _ => ?_
          have hpassed := hscan.pass he hfound (by simp [hdecode])
          exact ih (hlate.free hfree) hrest (hlate.scanned id hpassed)
        | some record =>
          simp only [hdecode]
          cases record with
          | negative =>
            refine (accounts_notice hfree _).quiet fun late _ hlate _ => ?_
            refine (accounts_count (hlate.free hfree) _).quiet fun last _ hlast _ => accounts_pure ?_
            rintro found ⟨⟩
            exact .negative (hsighted.later (hlate.trans hlast).earlier) hdecode
          | positive value =>
            refine (accounts_notice hfree _).quiet fun late _ hlate _ => ?_
            refine (accounts_count (hlate.free hfree) _).quiet fun late' _ hlate' _ => ?_
            have hlater := hlate.trans hlate'
            have hsighted := hsighted.later hlater.earlier
            refine (accounts_backfill (hlater.free hfree) hsighted hdecode (List.Subset.refl _)).bind
              fun last _ hlast _ => accounts_pure ?_
            rintro found ⟨⟩
            exact .hit (hsighted.later hlast.earlier) hdecode

theorem accounts_get (hfree : now.Free) (huntouched : Untouched (stack.fullKey key) now.told) :
    Accounts stack work anyKey now (stack.get key : CacheProc ScriptedLoader _)
      fun later result => ∀ found, result = .ok found →
        Backed stack later.told (stack.fullKey key) found :=
  accounts_readFrom hfree rfl (scanned_nil huntouched)

-- ---------------------------------------------------------------------------
-- Writing
-- ---------------------------------------------------------------------------

theorem accounts_writeEach (hfree : now.Free) {content : Option Bytes}
    (h : Brought now.told work key content) {ttl : Duration}
    (hlasting : stack.Usable → ttl.isZero = false) (first : Except CacheError Unit) (tiers : List Tier) :
    Accounts stack work anyKey now
      (Stack.writeEach (stack.fullKey key) (Record.payloadOf content) ttl first tiers :
        CacheProc ScriptedLoader _) fun _ _ => True := by
  induction tiers generalizing now first with
  | nil => exact accounts_pure trivial
  | cons tier rest ih =>
    refine (accounts_setIn hfree (.brought h hlasting) trivial).bind fun mid result hmid _ => ?_
    have hfree := hmid.free hfree
    cases result with
    | ok _ => exact ih hfree (h.later hmid.earlier) _
    | error _ =>
      refine (accounts_notice hfree _).bind fun late _ hlate _ => ?_
      exact ih (hlate.free hfree) (h.later (hmid.trans hlate).earlier) _

theorem accounts_set (hfree : now.Free) {value : Bytes} (h : Brought now.told work key (some value))
    (ttl : Duration) :
    Accounts stack work anyKey now (stack.set key value ttl : CacheProc ScriptedLoader _)
      fun _ _ => True := by
  have hlasting (hstack : stack.Usable) : (stack.resolveTtl ttl).isZero = false :=
    Duration.isZero_orElse hstack.lasting
  refine (accounts_jittered hfree hlasting).bind fun mid result hmid hresult => ?_
  exact accounts_writeEach (hmid.free hfree) (h.later hmid.earlier) hresult _ _

theorem accounts_setNegative (hfree : now.Free) (h : Brought now.told work key none) :
    Accounts stack work anyKey now (stack.setNegative key : CacheProc ScriptedLoader _)
      fun _ _ => True := by
  refine (accounts_jittered hfree fun hstack => hstack.marking).bind fun mid result hmid hresult => ?_
  exact accounts_writeEach (hmid.free hfree) (h.later hmid.earlier) hresult _ _

theorem accounts_deleteEach (hfree : now.Free) (first : Except CacheError Unit) (tiers : List Tier) :
    Accounts stack work anyKey now
      (Stack.deleteEach key first tiers : CacheProc ScriptedLoader _) fun _ _ => True := by
  induction tiers generalizing now first with
  | nil => exact accounts_pure trivial
  | cons tier rest ih =>
    have hdelete : Accounts stack work anyKey now
        (deleteIn tier key : CacheProc ScriptedLoader _) _ :=
      accounts_ask rfl hfree trivial fun _ _ => trivial
    refine hdelete.bind fun mid result hmid _ => ?_
    have hfree := hmid.free hfree
    cases result with
    | ok _ => exact ih hfree _
    | error _ => exact (accounts_notice hfree _).bind fun late _ hlate _ => ih (hlate.free hfree) _

theorem accounts_close (hfree : now.Free) :
    Accounts stack work anyKey now (stack.close : CacheProc ScriptedLoader Unit) fun _ _ => True := by
  have heach (tiers : List Tier) {now : Account} (hfree : now.Free) :
      Accounts stack work anyKey now (Stack.closeEach tiers : CacheProc ScriptedLoader Unit)
        fun _ _ => True := by
    induction tiers generalizing now with
    | nil => exact accounts_pure trivial
    | cons tier rest ih =>
      have hclose : Accounts stack work anyKey now
          (CacheProc.ask (.close tier.slot) : CacheProc ScriptedLoader Unit) _ :=
        accounts_ask rfl hfree trivial fun _ _ => trivial
      exact hclose.bind fun _ _ hmid _ => ih (hmid.free hfree)
  exact (heach stack.tiers hfree).bind fun _ _ hmid _ => accounts_notice (hmid.free hfree) _

end

-- ---------------------------------------------------------------------------
-- Reading through a loader
-- ---------------------------------------------------------------------------

section
variable {stack : Stack} {now : Account} {key : String} {loader : ScriptedLoader}
  {options : RememberOptions}

def ReturnsObtained (stack : Stack) (work : Work) (key : String) (later : Account)
    (outcome : Outcome) : Prop :=
  ∀ value, outcome = .ok value → Obtained stack later.told work key (some value)

theorem accounts_loadWith (hfree : now.Free) (ttl : Duration) :
    Accounts stack (.remember key loader options) anyKey now (stack.loadWith key loader ttl)
      (ReturnsObtained stack (.remember key loader options) key) := by
  refine (accounts_count hfree _).bind fun mid _ hmid _ => ?_
  have hfree := hmid.free hfree
  have hload : Accounts stack (.remember key loader options) anyKey mid (load loader) _ :=
    accounts_ask rfl hfree trivial fun _ _ => trivial
  refine hload.bind fun late reply hlate htold => ?_
  have hfree := hlate.free hfree
  have hexchange : ⟨.load loader, reply⟩ ∈ late.told := by simp [htold]
  cases reply with
  | ok item =>
    have hbrought : Brought late.told (.remember key loader options) key (some item.value) :=
      .inr ⟨_, hexchange, .loaded⟩
    refine (accounts_set hfree hbrought _).bind fun last result hlast _ => ?_
    have hobtained {end' : Account} (hend : last.Before anyKey end') :
        ReturnsObtained stack (.remember key loader options) key end' (.ok item.value) := by
      rintro value ⟨⟩
      exact .learned ((hlast.trans hend).earlier.mem hexchange) .loaded
    cases result with
    | ok _ => exact accounts_pure (hobtained (.refl _ _))
    | error _ =>
      exact (accounts_notice (hlast.free hfree) _).bind fun _ _ hend _ => accounts_pure (hobtained hend)
  | error e =>
    have hfailed {end' : Account} {e : CacheError} :
        ReturnsObtained stack (.remember key loader options) key end' (.error e) := by
      rintro value ⟨⟩
    simp only
    split
    · rename_i hnotFound
      refine (accounts_notice hfree _).bind fun noted _ hnoted _ => ?_
      have hbrought : Brought noted.told (.remember key loader options) key none :=
        .inr ⟨_, hnoted.earlier.mem hexchange, .notFound hnotFound⟩
      refine (accounts_setNegative (hnoted.free hfree) hbrought).bind fun last result hlast _ => ?_
      cases result with
      | ok _ => exact accounts_pure hfailed
      | error _ =>
        refine (accounts_notice (hlast.free (hnoted.free hfree)) _).bind fun _ _ _ _ => ?_
        exact accounts_pure hfailed
    · exact accounts_pure hfailed

theorem accounts_getOr {work : Work} (hfree : now.Free)
    (huntouched : Untouched (stack.fullKey key) now.told) {onMiss : CacheProc ScriptedLoader Outcome}
    {post : Account → Outcome → Prop}
    (hmiss : ∀ mid, now.Before anyKey mid → Untouched (stack.fullKey key) mid.told →
      onMiss.Keeps (accounting stack work) post mid)
    (hpost : ∀ later outcome, now.Before anyKey later →
      ReturnsObtained stack work key later outcome → post later outcome) :
    (stack.getOr key onMiss).Keeps (accounting stack work) post now := by
  refine (accounts_get hfree huntouched).andThen fun mid result hmid hbacked => ?_
  cases result with
  | error e => exact hpost _ _ hmid (by rintro value ⟨⟩)
  | ok found =>
    cases found with
    | hit value =>
      refine hpost _ _ hmid ?_
      rintro value ⟨⟩
      cases hbacked _ rfl with
      | hit h hdecode => exact .sighted h hdecode
    | negative => exact hpost _ _ hmid (by rintro value ⟨⟩)
    | miss =>
      cases hbacked _ rfl with
      | miss h => exact hmiss mid hmid h

/-- Who shares a load lands what it has obtained, or returns what another one landed. -/
theorem accounts_share (hout : now.stance = .outside)
    (huntouched : Untouched (stack.fullKey key) now.told) {load : CacheProc ScriptedLoader Outcome}
    (hload : ∀ mid : Account, mid.Free → Untouched (stack.fullKey key) mid.told →
      load.Keeps (accounting stack (.remember key loader options))
        (fun later outcome => later.stance = mid.stance ∧
          ReturnsObtained stack (.remember key loader options) key later outcome) mid) :
    (share (stack.fullKey key) load).Keeps (accounting stack (.remember key loader options))
      (fun later outcome => later.stance = .outside ∧
        ReturnsObtained stack (.remember key loader options) key later outcome) now := by
  have hquiet {r : CacheRequest ScriptedLoader} {reply : r.Reply} (hr : r.onFlight = true)
      {told : List CacheExchange} (h : Untouched (stack.fullKey key) told) :
      Untouched (stack.fullKey key) (told ++ [⟨r, reply⟩]) := by
    refine h.append fun e he htouches => ?_
    rw [List.mem_singleton.mp he] at htouches
    cases r <;> first | exact htouches | cases hr
  have hshared {later : Account} {outcome : Outcome}
      (h : ReturnsObtained stack (.remember key loader options) key later outcome) :
      ReturnsObtained stack (.remember key loader options) key later (outcome.mapError (·.share)) := by
    intro value hvalue
    cases outcome with
    | ok _ => exact h value hvalue
    | error _ => cases hvalue
  refine ⟨⟨hout, trivial⟩, ?_⟩
  rintro seat waiting ⟨⟨hseat, hwaiting⟩, hjoined⟩
  refine ⟨⟨hwaiting, trivial⟩, ?_⟩
  rintro landed mid ⟨hstance, hturned⟩
  cases landed with
  | some outcome =>
    refine ⟨⟨hstance, trivial⟩, ?_⟩
    rintro _ later ⟨hgone, hleft⟩
    refine ⟨hgone, hshared ?_⟩
    rintro value rfl
    exact .shared rfl hseat (by simp [hleft, hturned])
  | none =>
    have huntouched : Untouched (stack.fullKey key) mid.told := by
      rw [hturned, hjoined]
      exact hquiet rfl (hquiet rfl huntouched)
    refine (hload mid (.inr ⟨seat, hstance⟩) huntouched).bind ?_
    rintro ready outcome ⟨hready, hobtained⟩
    refine ⟨⟨hready.trans hstance, fun value hvalue => ⟨key, hseat, hobtained value hvalue⟩⟩, ?_⟩
    rintro _ down ⟨hdown, hlanded⟩
    refine ⟨⟨hdown, trivial⟩, ?_⟩
    rintro _ later ⟨hgone, hleft⟩
    refine ⟨hgone, hshared fun value hvalue => (hobtained value hvalue).later ?_⟩
    rw [hleft, hlanded, List.append_assoc]
    exact List.prefix_append ..

theorem accounts_remember (hout : now.stance = .outside)
    (huntouched : Untouched (stack.fullKey key) now.told) :
    (stack.remember key loader options).Keeps (accounting stack (.remember key loader options))
      (fun later outcome => later.stance = .outside ∧
        ReturnsObtained stack (.remember key loader options) key later outcome) now := by
  unfold Stack.remember
  refine accounts_getOr (.inl hout) huntouched (fun mid hmid huntouched => ?_)
    fun later outcome hlater h => ⟨hlater.stance.trans hout, h⟩
  have hout := hmid.stance.trans hout
  split
  · refine Proc.Keeps.mono (accounts_loadWith (.inl hout) _) ?_
    exact fun later outcome h => ⟨h.1.stance.trans hout, h.2⟩
  · refine accounts_share hout huntouched fun led hfree huntouched => ?_
    refine accounts_getOr hfree huntouched (fun late hlate _ => ?_)
      fun later outcome hlater h => ⟨hlater.stance, h⟩
    refine Proc.Keeps.mono (accounts_loadWith (hlate.free hfree) _) ?_
    exact fun later outcome h => ⟨h.1.stance.trans hlate.stance, h.2⟩

end

end StackedCache
