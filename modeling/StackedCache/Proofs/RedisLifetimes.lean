import StackedCache.Proofs.RedisBatches

/-!
# Lifetimes on a Redis server

What a write sends of its time to live: nothing if it is zero, and otherwise
whole milliseconds, rounded down but at least one. A server reads that number
as one of 64 bits with a sign, while it is cut off at 64 bits without one, so
the longest times to live are refused. Up to there no write fails for its time
to live.
-/

namespace StackedCache.Redis

variable {σ α : Type}

def sent (answer : List Command → σ → List Reply × σ) : Proc ServerCalls α → σ → List Command
  | .done _, _ => []
  | .ask commands next, s =>
    commands ++ sent answer (next (answer commands s).1) (answer commands s).2

open Command in
/-- A command whose words write a value under a key, with the text of a lifetime or without one. -/
inductive Writes (key : String) (value : Bytes) : Option String → Command → Prop
  | plain {command : Command} (hname : command.name = "SET")
    (hwords : command.arguments = [word key, value]) : Writes key value none command
  | px {command : Command} {text : String} (hname : command.name = "SET")
    (hwords : command.arguments = [word key, value, word "PX", word text]) :
    Writes key value (some text) command
  | psetex {command : Command} {text : String} (hname : command.name = "PSETEX")
    (hwords : command.arguments = [word key, word text, value]) : Writes key value (some text) command

/-- A server answers with an error to a command whose lifetime it does not take, and leaves what it has. -/
def Refuses (execute : Command → σ → Reply × σ) (accepts : Nat → Prop) : Prop :=
  ∀ command, ∀ millis ∈ command.lifetime?, ¬accepts millis → ∀ s, ∃ text, execute command s = (.error text, s)

def lifetime (ttl : Duration) : Option Nat := if ttl.isZero then none else some (ttlMillis ttl)

def readLifetime? (text : String) : Option Nat :=
  ((Text.int64? text.toList).filter (0 < ·)).map Int.toNat

-- ---------------------------------------------------------------------------
-- Texts of numbers
-- ---------------------------------------------------------------------------

theorem isDigit_of_char {c : Char} (h : c.isDigit = true) : Text.isDigit c = true := by
  simp only [Char.isDigit, Bool.and_eq_true, decide_eq_true_eq] at h
  simp only [Text.isDigit, Bool.and_eq_true, decide_eq_true_eq]
  exact h

theorem numberOf_eq_ofDigitChars {digits : List Char} (h : ∀ c ∈ digits, Text.isDigit c = true) :
    Text.numberOf 10 digits = Nat.ofDigitChars 10 digits 0 := by
  unfold Text.numberOf Nat.ofDigitChars
  generalize 0 = n
  induction digits generalizing n with
  | nil => rfl
  | cons c digits ih =>
    obtain ⟨hc, hdigits⟩ := List.forall_mem_cons.mp h
    simp only [List.foldl_cons, Text.digitValue, hc, ↓reduceIte]
    exact ih hdigits _

theorem natural?_toString (n : Nat) : Text.natural? (toString n).toList = some n := by
  have hdigits : ∀ c ∈ Nat.toDigits 10 n, Text.isDigit c = true := fun c hc =>
    isDigit_of_char (Nat.isDigit_of_mem_toDigits (by decide) (by decide) hc)
  have hsome : (Nat.toDigits 10 n).isEmpty = false := List.isEmpty_eq_false_iff.mpr Nat.toDigits_ne_nil
  rw [Nat.toString_eq_repr, Nat.toList_repr]
  simp only [Text.natural?, hsome, List.all_eq_true.mpr hdigits, numberOf_eq_ofDigitChars hdigits,
    Nat.ofDigitChars_ten_toDigits]
  rfl

theorem signed_toString (n : Nat) : Text.signed (toString n).toList = (false, (toString n).toList) := by
  have hdigit : ∀ c ∈ (toString n).toList, c.isDigit = true := fun c hc => by
    rw [Nat.toString_eq_repr, Nat.toList_repr] at hc
    exact Nat.isDigit_of_mem_toDigits (by decide) (by decide) hc
  unfold Text.signed
  split
  · rename_i htext
    rw [htext] at hdigit
    cases hdigit '-' List.mem_cons_self
  · rename_i htext
    rw [htext] at hdigit
    cases hdigit '+' List.mem_cons_self
  · rfl

theorem fitsInt64_natCast (n : Nat) : Text.fitsInt64 n = decide (n < 2 ^ 63) := by
  have hlow : (-2 ^ 63 : Int) ≤ n := Int.le_trans (by decide) (Int.natCast_nonneg n)
  have hhigh : (n : Int) < 2 ^ 63 ↔ n < 2 ^ 63 := by
    rw [← Int.ofNat_lt]
    rfl
  simp only [Text.fitsInt64, hlow, hhigh, decide_true, Bool.true_and]

theorem readLifetime?_toString {millis : Nat} (h : 1 ≤ millis) :
    readLifetime? (toString millis) = if millis < 2 ^ 63 then some millis else none := by
  have hread : Text.integer? (toString millis).toList = some (millis : Int) := by
    rw [Text.integer?, signed_toString, natural?_toString]
    rfl
  have hpos : decide ((0 : Int) < millis) = true := decide_eq_true (Int.natCast_pos.mpr h)
  unfold readLifetime? Text.int64?
  rw [hread, Option.filter_some, fitsInt64_natCast]
  by_cases hlt : millis < 2 ^ 63
  · simp only [hlt, decide_true, ↓reduceIte, Option.filter_some, hpos, Option.map_some, Int.toNat_natCast]
  · simp only [hlt, decide_false, Bool.false_eq_true, ↓reduceIte]
    rfl

-- ---------------------------------------------------------------------------
-- Milliseconds
-- ---------------------------------------------------------------------------

theorem ttlMillis_short {ttl : Duration} (h : ttl.nanos < 10 ^ 6) : ttlMillis ttl = 1 := by
  unfold ttlMillis Duration.millis
  omega

theorem ttlMillis_eq_min {ttl : Duration} (h : 10 ^ 6 ≤ ttl.nanos) :
    ttlMillis ttl = min (ttl.nanos / 10 ^ 6) (2 ^ 64 - 1) := by
  unfold ttlMillis Duration.millis
  omega

theorem ttlMillis_mono {ttl longer : Duration} (h : ttl.nanos ≤ longer.nanos) :
    ttlMillis ttl ≤ ttlMillis longer := by
  have hmillis : ttl.millis ≤ longer.millis := Nat.div_le_div_right h
  unfold ttlMillis
  omega

theorem takes_ttlMillis_iff {ttl : Duration} : Takes (ttlMillis ttl) ↔ ttl.nanos / 10 ^ 6 < 2 ^ 63 := by
  unfold Takes ttlMillis Duration.millis
  omega

theorem readLifetime?_ttlMillis (ttl : Duration) : readLifetime? (toString (ttlMillis ttl)) =
    if ttl.nanos / 10 ^ 6 < 2 ^ 63 then some (ttlMillis ttl) else none := by
  rw [readLifetime?_toString (one_le_ttlMillis ttl)]
  simp only [← takes_ttlMillis_iff, Takes, one_le_ttlMillis, true_and]

theorem isZero_iff (ttl : Duration) : ttl.isZero = true ↔ ttl.nanos = 0 := beq_iff_eq

theorem lifetime_eq_none_iff (ttl : Duration) : lifetime ttl = none ↔ ttl.nanos = 0 := by
  rw [← isZero_iff]
  unfold lifetime
  split <;> simp [*]

theorem lifetime_eq_some_iff {ttl : Duration} {millis : Nat} :
    lifetime ttl = some millis ↔ 0 < ttl.nanos ∧ ttlMillis ttl = millis := by
  rw [Nat.pos_iff_ne_zero, Ne, ← isZero_iff]
  unfold lifetime
  split <;> simp [*]

-- ---------------------------------------------------------------------------
-- Commands
-- ---------------------------------------------------------------------------

theorem writes_singleWrite (key : String) (value : Bytes) (ttl : Duration) :
    Writes key value ((lifetime ttl).map toString) (singleWrite key value ttl) := by
  unfold lifetime singleWrite
  split
  · exact .plain rfl rfl
  · exact .psetex rfl rfl

theorem writes_batchWrite (row : String × Bytes) (ttl : Duration) :
    Writes row.1 row.2 ((lifetime ttl).map toString) (batchWrite ttl row) := by
  unfold lifetime batchWrite
  split
  · exact .plain rfl rfl
  · exact .px rfl rfl

section
variable (answer : List Command → σ → List Reply × σ) (s : σ)

theorem sent_set (key : String) (value : Bytes) (ttl : Duration) :
    sent answer (store (.set key value ttl)) s = [singleWrite key value ttl] := rfl

theorem sent_mset (rows : List (String × Bytes)) (ttl : Duration) :
    sent answer (store (.mset rows ttl)) s = rows.map (batchWrite ttl) := by
  cases rows with
  | nil => rfl
  | cons row rows => exact List.append_nil _

end

-- ---------------------------------------------------------------------------
-- Refusals
-- ---------------------------------------------------------------------------

theorem lifetime?_singleWrite (key : String) (value : Bytes) (ttl : Duration) :
    (singleWrite key value ttl).lifetime? = lifetime ttl := by
  unfold singleWrite lifetime
  split <;> rfl

theorem lifetime?_batchWrite (row : String × Bytes) (ttl : Duration) :
    (batchWrite ttl row).lifetime? = lifetime ttl := rfl

theorem Server.refuses (now : Instant) : Refuses (attempt now) Takes := by
  intro command millis hmillis hrefused server
  exact ⟨_, if_neg fun h => hrefused (h millis hmillis)⟩

section
variable {execute : Command → σ → Reply × σ} {accepts : Nat → Prop} {commands : List Command}

theorem Refuses.executeAll_state (h : Refuses execute accepts)
    (hcommands : ∀ command ∈ commands, ∃ millis ∈ command.lifetime?, ¬accepts millis) (s : σ) :
    (executeAll execute commands s).2 = s := by
  induction commands with
  | nil => rfl
  | cons command commands ih =>
    obtain ⟨⟨millis, hmillis, hrefused⟩, hrest⟩ := List.forall_mem_cons.mp hcommands
    obtain ⟨text, hreply⟩ := h command millis hmillis hrefused s
    simp only [executeAll, hreply]
    exact ih hrest

/-- A pipeline of commands that are all refused fails with the first of the errors. -/
theorem Refuses.run_send (h : Refuses execute accepts) (hsome : commands ≠ [])
    (hcommands : ∀ command ∈ commands, ∃ millis ∈ command.lifetime?, ¬accepts millis)
    (read : List Reply → Except Failure α) (s : σ) :
    ∃ failure, (send commands read).run (executeAll execute) s = (.error failure, s) := by
  have hstate := h.executeAll_state hcommands s
  cases commands with
  | nil => exact absurd rfl hsome
  | cons command commands =>
    obtain ⟨millis, hmillis, hrefused⟩ := hcommands command List.mem_cons_self
    obtain ⟨text, hreply⟩ := h command millis hmillis hrefused s
    have hfailure : firstFailure? (executeAll execute (command :: commands) s).1 =
        some (commandFailure (errorText text)) := by
      simp [executeAll, hreply, firstFailure?, Reply.failure?]
    refine ⟨commandFailure (errorText text), ?_⟩
    simp only [send, Proc.request, Proc.run_bind, Proc.run, hfailure, hstate]
    rfl

variable {ttl : Duration}

theorem Refuses.run_set (h : Refuses execute accepts) (hlasting : 0 < ttl.nanos)
    (hrefused : ¬accepts (ttlMillis ttl)) (key : String) (value : Bytes) (s : σ) :
    ∃ e, (store (.set key value ttl)).run (executeAll execute) s = (.error e, s) := by
  refine h.run_send (List.cons_ne_nil _ _) (List.forall_mem_singleton.mpr ?_) _ s
  exact ⟨_, lifetime?_singleWrite key value ttl ▸ lifetime_eq_some_iff.mpr ⟨hlasting, rfl⟩, hrefused⟩

theorem Refuses.run_mset (h : Refuses execute accepts) (hlasting : 0 < ttl.nanos)
    (hrefused : ¬accepts (ttlMillis ttl)) {rows : List (String × Bytes)} (hsome : rows ≠ []) (s : σ) :
    ∃ e, (store (.mset rows ttl)).run (executeAll execute) s = (.error e, s) := by
  rw [store, if_neg (by simpa using hsome)]
  refine h.run_send (by simpa using hsome) (List.forall_mem_map.mpr fun row _ => ?_) _ s
  exact ⟨_, lifetime?_batchWrite row ttl ▸ lifetime_eq_some_iff.mpr ⟨hlasting, rfl⟩, hrefused⟩

end

/-- A single write and a batch write send the same lifetime: none for a time to live of zero, and else
one millisecond at least, the whole milliseconds of the time to live as far as 64 bits go, and never
fewer for a longer time to live. A server that reads 64 bits with a sign takes it, and the write
succeeds, as long as there are less than 2⁶³ milliseconds; from there on it cannot read it, and each write
of anything fails and changes nothing. -/
theorem lifetimes_sent (ttl : Duration) :
    (∀ {σ : Type} (answer : List Command → σ → List Reply × σ) (s : σ),
      (∀ key value, ∃ command, sent answer (store (.set key value ttl)) s = [command] ∧
        Writes key value ((lifetime ttl).map toString) command) ∧
      ∀ rows, ∃ write : String × Bytes → Command, sent answer (store (.mset rows ttl)) s = rows.map write ∧
        ∀ row, Writes row.1 row.2 ((lifetime ttl).map toString) (write row)) ∧
    (lifetime ttl = none ↔ ttl.nanos = 0) ∧
    (∀ millis, lifetime ttl = some millis →
      1 ≤ millis ∧
      (ttl.nanos < 10 ^ 6 → millis = 1) ∧
      (10 ^ 6 ≤ ttl.nanos → millis = min (ttl.nanos / 10 ^ 6) (2 ^ 64 - 1)) ∧
      readLifetime? (toString millis) = (if ttl.nanos / 10 ^ 6 < 2 ^ 63 then some millis else none) ∧
      ∀ longer, ttl.nanos ≤ longer.nanos → ∃ more, lifetime longer = some more ∧ millis ≤ more) ∧
    (∀ {σ : Type} {execute : Command → σ → Reply × σ} {held : σ → String → Option Item} {now : Instant},
      Documented execute held now Takes → ttl.nanos / 10 ^ 6 < 2 ^ 63 → ∀ s,
      (∀ key value, ∃ s', (store (.set key value ttl)).run (executeAll execute) s = (.ok (), s')) ∧
      ∀ rows, ∃ s', (store (.mset rows ttl)).run (executeAll execute) s = (.ok (), s')) ∧
    ∀ {σ : Type} {execute : Command → σ → Reply × σ}, Refuses execute Takes →
      2 ^ 63 ≤ ttl.nanos / 10 ^ 6 → ∀ s,
      (∀ key value, ∃ e, (store (.set key value ttl)).run (executeAll execute) s = (.error e, s)) ∧
      ∀ rows, rows ≠ [] → ∃ e, (store (.mset rows ttl)).run (executeAll execute) s = (.error e, s) := by
  refine ⟨fun answer s => ⟨fun key value => ?_, fun rows => ?_⟩, lifetime_eq_none_iff ttl, ?_, ?_, ?_⟩
  · exact ⟨_, sent_set answer s key value ttl, writes_singleWrite key value ttl⟩
  · exact ⟨_, sent_mset answer s rows ttl, fun row => writes_batchWrite row ttl⟩
  · intro millis hmillis
    obtain ⟨hlasting, rfl⟩ := lifetime_eq_some_iff.mp hmillis
    refine ⟨one_le_ttlMillis ttl, ttlMillis_short, ttlMillis_eq_min, readLifetime?_ttlMillis ttl, ?_⟩
    intro longer h
    exact ⟨_, lifetime_eq_some_iff.mpr ⟨Nat.lt_of_lt_of_le hlasting h, rfl⟩, ttlMillis_mono h⟩
  · intro σ execute held now hserver h s
    have htakes : ttl.isZero = false → Takes (ttlMillis ttl) := fun _ => takes_ttlMillis_iff.mpr h
    refine ⟨fun key value => ?_, fun rows => ?_⟩
    · obtain ⟨s', hrun, -⟩ := hserver.run_set htakes key value s
      exact ⟨s', hrun⟩
    · obtain ⟨s', hrun, -⟩ := hserver.run_mset htakes rows s
      exact ⟨s', hrun⟩
  · intro σ execute hserver h s
    have hlasting : 0 < ttl.nanos := by omega
    have hrefused : ¬Takes (ttlMillis ttl) := by
      rw [takes_ttlMillis_iff]
      omega
    exact ⟨fun key value => hserver.run_set hlasting hrefused key value s,
      fun rows hsome => hserver.run_mset hlasting hrefused hsome s⟩

def longestTaken : Duration := ⟨2 ^ 63 * 10 ^ 6 - 1, by decide⟩

theorem lifetimes_sent_longest : Documented (Server.attempt 0) (Server.held 0) 0 Takes ∧
    lifetime longestTaken = some 9223372036854775807 ∧
    readLifetime? (toString 9223372036854775807) = some 9223372036854775807 ∧
    (∃ s', (store (.set "k" [118] longestTaken)).run (executeAll (Server.attempt 0)) {} = (.ok (), s')) ∧
    (∃ s', (store (.mset [("k", [118]), ("k", [])] longestTaken)).run (executeAll (Server.attempt 0)) {} =
      (.ok (), s')) ∧
    Refuses (Server.attempt 0) Takes ∧
    ∃ e, (store (.mset [("k", [118]), ("k", [])] .longest)).run (executeAll (Server.attempt 0)) {} =
      (.error e, {}) := by
  obtain ⟨-, -, hmillis, hwrites, -⟩ := lifetimes_sent longestTaken
  obtain ⟨-, -, -, -, hrefused⟩ := lifetimes_sent .longest
  have hlifetime : lifetime longestTaken = some 9223372036854775807 := rfl
  obtain ⟨-, -, -, hread, -⟩ := hmillis _ hlifetime
  obtain ⟨hset, hmset⟩ := hwrites (Server.documented 0) (by decide) {}
  obtain ⟨-, hfails⟩ := hrefused (Server.refuses 0) (by decide) {}
  exact ⟨Server.documented 0, hlifetime, hread, hset "k" [118], hmset [("k", [118]), ("k", [])],
    Server.refuses 0, hfails [("k", [118]), ("k", [])] (List.cons_ne_nil _ _)⟩

/-- The longest time to live is sent as a number that is too large for the server, so both kinds of
writes fail. -/
theorem longest_lifetime_refused :
    sent (executeAll (Server.attempt 0)) (store (.set "k" [118] .longest)) {} =
      [.psetex "k" 18446744073709551615 [118]] ∧
    sent (executeAll (Server.attempt 0)) (store (.mset [("k", [118])] .longest)) {} =
      [.set "k" [118] (some 18446744073709551615)] ∧
    readLifetime? (toString 18446744073709551615) = none ∧
    (store (.set "k" [118] .longest)).run (executeAll (Server.attempt 0)) {} =
      (.error (commandFailure (errorText outOfRange)), {}) ∧
    (store (.mset [("k", [118])] .longest)).run (executeAll (Server.attempt 0)) {} =
      (.error (commandFailure (errorText outOfRange)), {}) := by
  refine ⟨rfl, rfl, ?_, ?_, ?_⟩
  · rw [readLifetime?_toString (by decide)]
    rfl
  · rfl
  · rfl

end StackedCache.Redis
