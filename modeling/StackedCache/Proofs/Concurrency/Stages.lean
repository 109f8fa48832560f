import StackedCache.Proofs.Concurrency.Protocol
import StackedCache.Proofs.RecordRoundTrip
import StackedCache.Proofs.Settings
import StackedCache.Cache.Remember

/-!
# Stages of a shared key

One key of a cache is looked up and loaded by many tasks. All of them together
bring it through three stages: nobody has loaded it, a loader has answered and
its answer is being written, the last layer has it. A task knows a stage that
has been reached, and who leads the flight of the key knows the stage itself,
since nobody else can end it. The discipline below tells what a task may ask
for at a stage, and what the layers answer.
-/

namespace StackedCache

open Concurrency

abbrev Finding : Type := Except CacheError Loaded

namespace Finding

/-- There is a value, short enough for the format of records, or it is known that there is none. -/
def Storable : Finding → Prop
  | .ok loaded => loaded.value.length < 2 ^ 32
  | .error e => e.isNotFound

instance : DecidablePred Storable
  | .ok loaded => inferInstanceAs (Decidable (loaded.value.length < 2 ^ 32))
  | .error e => inferInstanceAs (Decidable (e.isNotFound = true))

def payload : Finding → Bytes
  | .ok loaded => Record.encode loaded.value
  | .error _ => Record.encodeNegative

def record : Finding → Record
  | .ok loaded => .positive (some loaded.value)
  | .error _ => .negative

def outcome : Finding → Outcome
  | .ok loaded => .ok loaded.value
  | .error _ => .error .notFound

def lookup : Finding → Lookup
  | .ok loaded => .hit loaded.value
  | .error _ => .negative

theorem decode_payload {finding : Finding} (h : finding.Storable) :
    Record.decode finding.payload = some finding.record := by
  cases finding with
  | ok loaded => exact Record.decode_encode_alone h
  | error e => rfl

theorem lookup_negative {finding : Finding} (h : finding.record = .negative) :
    finding.lookup = .negative := by
  cases finding with
  | ok loaded => cases h
  | error e => rfl

theorem lookup_positive {finding : Finding} {value : Option Bytes}
    (h : finding.record = .positive value) :
    finding.lookup = .hit (Record.positive value).value := by
  cases finding with
  | ok loaded =>
    cases h
    rfl
  | error e => cases h

@[simp] theorem share_outcome (finding : Finding) :
    finding.outcome.mapError (·.share) = finding.outcome := by
  cases finding <;> rfl

end Finding

namespace Concurrency

inductive Stage where
  | untouched
  | loaded (finding : Finding)
  /-- The last layer has what was loaded. -/
  | settled (finding : Finding)

namespace Stage

def finding? : Stage → Option Finding
  | .untouched => none
  | .loaded finding | .settled finding => some finding

def le : Stage → Stage → Prop
  | .untouched, _ => True
  | .loaded finding, stage => stage.finding? = some finding
  | .settled finding, stage => stage = .settled finding

instance : LE Stage := ⟨le⟩

def settle : Stage → Stage
  | .loaded finding => .settled finding
  | stage => stage

def Holds (stage : Stage) (payload : Bytes) : Prop :=
  ∃ finding : Finding, stage.finding? = some finding ∧ finding.Storable ∧ payload = finding.payload

variable {stage mid stage' : Stage} {finding : Finding} {payload : Bytes}

theorem le_refl (stage : Stage) : stage ≤ stage := by
  cases stage with
  | untouched => trivial
  | loaded finding => rfl
  | settled finding => rfl

theorem finding_of_le (h : stage ≤ stage') (hf : stage.finding? = some finding) :
    stage'.finding? = some finding := by
  cases stage with
  | untouched => cases hf
  | loaded _ => exact hf ▸ h
  | settled _ =>
    obtain rfl : stage' = _ := h
    exact hf

theorem settled_le (h : .settled finding ≤ stage') : stage' = .settled finding := h

theorem le_trans (h : stage ≤ mid) (h' : mid ≤ stage') : stage ≤ stage' := by
  cases stage with
  | untouched => trivial
  | loaded finding => exact finding_of_le h' h
  | settled finding => exact (settled_le h ▸ h' : .settled finding ≤ stage')

theorem le_settle (stage : Stage) : stage ≤ stage.settle := by
  cases stage with
  | untouched => trivial
  | loaded finding => rfl
  | settled finding => rfl

theorem finding_settle (stage : Stage) : stage.settle.finding? = stage.finding? := by
  cases stage <;> rfl

theorem settle_of_finding (h : stage.finding? = some finding) : stage.settle = .settled finding := by
  cases stage with
  | untouched => cases h
  | loaded _ =>
    cases h
    rfl
  | settled _ =>
    cases h
    rfl

theorem Holds.later (h : stage.Holds payload) (hle : stage ≤ stage') : stage'.Holds payload := by
  obtain ⟨finding, hf, hstorable, rfl⟩ := h
  exact ⟨finding, finding_of_le hle hf, hstorable, rfl⟩

theorem Holds.decode (h : stage.Holds payload) :
    ∃ finding : Finding, stage.finding? = some finding ∧
      Record.decode payload = some finding.record := by
  obtain ⟨finding, hf, hstorable, rfl⟩ := h
  exact ⟨finding, hf, Finding.decode_payload hstorable⟩

theorem Holds.read (h : stage.Holds payload) {record : Record}
    (hdecode : Record.decode payload = some record) (hle : stage ≤ stage') :
    ∃ finding : Finding, stage'.finding? = some finding ∧ finding.record = record := by
  obtain ⟨finding, hf, hrecord⟩ := h.decode
  exact ⟨finding, finding_of_le hle hf, Option.some.inj (hrecord.symm.trans hdecode)⟩

theorem Holds.settled (h : stage.Holds payload) (hopen : ∀ finding, stage ≠ .loaded finding) :
    ∃ finding, stage = .settled finding := by
  obtain ⟨_, hf, -⟩ := h
  cases stage with
  | untouched => cases hf
  | loaded finding => exact absurd rfl (hopen finding)
  | settled finding => exact ⟨finding, rfl⟩

end Stage

structure Outlook where
  stage : Stage
  stance : Stance

namespace Outlook

def Leads (outlook : Outlook) (key : String) : Prop :=
  ∃ seat : Seat, outlook.stance = .leading seat ∧ seat.key = key

def Free (outlook : Outlook) : Prop :=
  outlook.stance = .outside ∨ ∃ seat, outlook.stance = .leading seat

structure Later (key : String) (now later : Outlook) : Prop where
  stance : later.stance = now.stance
  stage : now.stage ≤ later.stage
  sole : now.Leads key → later.stage = now.stage

variable {key : String} {now mid later : Outlook}

theorem Later.refl (key : String) (now : Outlook) : Later key now now :=
  ⟨rfl, Stage.le_refl _, fun _ => rfl⟩

theorem Later.leads (h : Later key now later) : later.Leads key ↔ now.Leads key := by
  simp only [Leads, h.stance]

theorem Leads.free (h : now.Leads key) : now.Free := .inr (h.imp fun _ h => h.1)

theorem Leads.moved (h : now.Leads key) (hstance : later.stance = now.stance) : later.Leads key := by
  unfold Leads
  rw [hstance]
  exact h

theorem Later.free (h : Later key now later) (hfree : now.Free) : later.Free := by
  unfold Free
  rw [h.stance]
  exact hfree

theorem Later.trans (h : Later key now mid) (h' : Later key mid later) : Later key now later :=
  ⟨h'.stance.trans h.stance, Stage.le_trans h.stage h'.stage,
    fun hl => (h'.sole (h.leads.mpr hl)).trans (h.sole hl)⟩

end Outlook

/-- What is read in a slot under the key is what was loaded, and in the last layer it is there
as soon as the key is settled. -/
structure Seen (stack : Stack) (stage : Stage) (slot : Nat) (found : Option Bytes) : Prop where
  only {payload : Bytes} : found = some payload → stage.Holds payload
  settled {finding : Finding} : stage = .settled finding → stack.lowest? = some slot →
    found = some finding.payload

theorem Seen.untouched {stack : Stack} {stage : Stage} {slot : Nat} (h : Seen stack stage slot none)
    (hlast : stack.lowest? = some slot) (hopen : ∀ finding, stage ≠ .loaded finding) :
    stage = .untouched := by
  cases stage with
  | untouched => rfl
  | loaded finding => exact absurd rfl (hopen finding)
  | settled finding => cases h.settled rfl hlast

variable {Loader : Type}

/-- What tasks may do while callers share the loads of a key. Only callers board its flights,
and their only loads are in the lead of one, at the first stage. Everybody writes to the key
only what was loaded, and nobody deletes it. -/
def minding (stack : Stack) (key : String) (caller : Prop) :
    Discipline (CacheCalls Loader) Outlook where
  permits now r := flightProtocol.permits now.stance r ∧
    match r with
    | .join key' => key' = key ↔ caller
    | .load _ => caller → now.Leads key ∧ now.stage = .untouched
    | .loadMany .. => ¬caller
    | .land seat outcome => seat.key = key →
      ∃ finding : Finding, now.stage = .settled finding ∧ outcome = finding.outcome
    | .layer _ (.set key' payload _) => key' = key → now.stage.Holds payload
    | .layer _ (.delete key') => key' ≠ key
    | .layer _ (.mset items _) => ¬now.Leads key ∧
      ∀ payload, (key, payload) ∈ items.rows → now.stage.Holds payload
    | _ => True
  admits now
    | .turn seat, landed, later => flightProtocol.admits now.stance (.turn seat) landed later.stance ∧
      now.stage ≤ later.stage ∧ (seat.key = key →
        match landed with
        | some outcome => ∃ finding : Finding, later.stage = .settled finding ∧ outcome = finding.outcome
        | none => ∀ finding, later.stage ≠ .loaded finding)
    | .load _, reply, later =>
      (caller → later.stance = now.stance ∧ later.stage = .loaded reply ∧ Finding.Storable reply) ∧
      (¬caller → now.Later key later)
    | .layer slot (.get key'), reply, later => now.Later key later ∧
      ∃ found, reply = .ok found ∧ (key' = key → (∃ tier ∈ stack.tiers, tier.slot = slot) →
        Seen stack later.stage slot (found.map Entry.payload))
    | .layer slot (.mget _), reply, later => now.Later key later ∧
      ∃ batch, reply = .ok batch ∧ ((∃ tier ∈ stack.tiers, tier.slot = slot) →
        ∀ payload, batch.hits.get? key = some payload → later.stage.Holds payload)
    | .layer slot (.set key' _ _), reply, later => reply = .ok () ∧
      -- the last write of who leads settles the key
      (now.Leads key → key' = key → stack.lowest? = some slot →
        later.stance = now.stance ∧ later.stage = now.stage.settle) ∧
      (¬(now.Leads key ∧ key' = key ∧ stack.lowest? = some slot) → now.Later key later)
    | .layer _ (.delete _), reply, later | .layer _ (.mset ..), reply, later =>
      reply = .ok () ∧ now.Later key later
    | .join key', seat, later => flightProtocol.admits now.stance (.join key') seat later.stance ∧
      now.stage ≤ later.stage
    | .land seat outcome, reply, later =>
      flightProtocol.admits now.stance (.land seat outcome) reply later.stance ∧
      now.stage ≤ later.stage
    | .leave seat, reply, later =>
      flightProtocol.admits now.stance (.leave seat) reply later.stance ∧ now.stage ≤ later.stage
    | _, _, later => now.Later key later

section
variable {stack : Stack} {key : String} {caller : Prop} {now later : Outlook} {α : Type}

theorem Outlook.Later.earlier {stage : Stage} (h : Outlook.Later key now later)
    (hle : stage ≤ now.stage) (hl : ¬now.Leads key) :
    Outlook.Later key ⟨stage, now.stance⟩ later :=
  ⟨h.stance, Stage.le_trans hle h.stage, fun hleads => absurd hleads hl⟩

/-- Others bring the key forward: who does not lead it goes on with what is known now. -/
theorem keeps_advance {p : CacheProc Loader α} {post : Outlook → α → Prop} {stage : Stage}
    (h : p.Keeps (minding stack key caller) post ⟨stage, now.stance⟩) (hle : stage ≤ now.stage)
    (hl : ¬now.Leads key) (hpost : ∀ a, post ⟨stage, now.stance⟩ a → post now a) :
    p.Keeps (minding stack key caller) post now := by
  refine h.informed ?_ ?_ hpost
  · rintro r ⟨hprotocol, hr⟩
    refine ⟨hprotocol, ?_⟩
    cases r with
    | load _ => exact fun hc => absurd (hr hc).1 hl
    | land seat _ => exact fun hkey => absurd ⟨seat, hprotocol, hkey⟩ hl
    | layer slot op =>
      cases op with
      | set _ _ _ => exact fun hkey => (hr hkey).later hle
      | mset _ _ => exact ⟨hl, fun payload hmem => (hr.2 payload hmem).later hle⟩
      | _ => exact hr
    | _ => exact hr
  · intro r reply later ha
    cases r with
    | join _ => exact ⟨ha.1, Stage.le_trans hle ha.2⟩
    | turn _ => exact ⟨ha.1, Stage.le_trans hle ha.2.1, ha.2.2⟩
    | land _ _ => exact ⟨ha.1, Stage.le_trans hle ha.2⟩
    | leave _ => exact ⟨ha.1, Stage.le_trans hle ha.2⟩
    | load _ => exact ⟨ha.1, fun hc => (ha.2 hc).earlier hle hl⟩
    | layer slot op =>
      cases op with
      | set _ _ _ =>
        exact ⟨ha.1, fun hleads => absurd hleads hl, fun hnot => (ha.2.2 fun h => hl h.1).earlier hle hl⟩
      | get _ => exact ⟨ha.1.earlier hle hl, ha.2⟩
      | mget _ => exact ⟨ha.1.earlier hle hl, ha.2⟩
      | delete _ => exact ⟨ha.1, ha.2.earlier hle hl⟩
      | mset _ _ => exact ⟨ha.1, ha.2.earlier hle hl⟩
    | _ => exact Outlook.Later.earlier ha hle hl

end

end Concurrency

end StackedCache
