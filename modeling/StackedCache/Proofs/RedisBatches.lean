import Mathlib.Logic.Function.Basic
import StackedCache.Proofs.LiveItems
import StackedCache.Redis.Server
import StackedCache.Redis.Store

/-!
# Batches on a Redis server

A batch read is one command and a batch write is a pipeline, and single writes
use another command than batch writes do. On a server that executes its
commands as documented it comes to the same: a batch read finds what single
reads find, and a batch write leaves what single writes leave.
-/

namespace StackedCache.Redis

variable {σ : Type}

def executeAll (execute : Command → σ → Reply × σ) : List Command → σ → List Reply × σ
  | [], s => ([], s)
  | command :: commands, s =>
    let (reply, s) := execute command s
    let (replies, s) := executeAll execute commands s
    (reply :: replies, s)

def valueReply : Option Item → Reply
  | none => .nil
  | some item => .bulk item.payload

/-- What the server's documentation says of reads and writes at one instant: `held` is what a server
has, expired values left out, and `accepts` tells which lifetimes it takes. -/
structure Documented (execute : Command → σ → Reply × σ) (held : σ → String → Option Item)
    (now : Instant) (accepts : Nat → Prop) : Prop where
  get (key : String) (s : σ) :
    (execute (.get key) s).1 = valueReply (held s key) ∧ held (execute (.get key) s).2 = held s
  mget (keys : List String) (s : σ) :
    (execute (.mget keys) s).1 = .array (keys.map fun key => valueReply (held s key)) ∧
    held (execute (.mget keys) s).2 = held s
  set (key : String) (value : Bytes) (s : σ) :
    (execute (.set key value none) s).1 = .okay ∧
    held (execute (.set key value none) s).2 = Function.update (held s) key (some ⟨value, none⟩)
  setPx (key : String) (value : Bytes) {millis : Nat} (h : accepts millis) (s : σ) :
    (execute (.set key value (some millis)) s).1 = .okay ∧
    held (execute (.set key value (some millis)) s).2 =
      Function.update (held s) key (some ⟨value, some (now + millis * 10 ^ 6)⟩)
  psetex (key : String) (value : Bytes) {millis : Nat} (h : accepts millis) (s : σ) :
    (execute (.psetex key millis value) s).1 = .okay ∧
    held (execute (.psetex key millis value) s).2 =
      Function.update (held s) key (some ⟨value, some (now + millis * 10 ^ 6)⟩)

-- ---------------------------------------------------------------------------
-- Replies
-- ---------------------------------------------------------------------------

theorem value?_valueReply (item? : Option Item) :
    (valueReply item?).value? = .ok (item?.map Item.payload) := by
  cases item? <;> rfl

theorem failure?_valueReply (item? : Option Item) : (valueReply item?).failure? = none := by
  cases item? <;> simp [valueReply, Reply.failure?]

theorem failure?_okay : Reply.okay.failure? = none := by simp [Reply.failure?]

section
variable (value : String → Option Item)

theorem firstFailure?_valueReplies (keys : List String) :
    firstFailure? (keys.map fun key => valueReply (value key)) = none := by
  induction keys with
  | nil => simp [firstFailure?]
  | cons key keys ih => simp [firstFailure?, failure?_valueReply, ih]

theorem mapM_valueReplies (keys : List String) :
    (keys.map fun key => valueReply (value key)).mapM Reply.value? =
      .ok (keys.map fun key => (value key).map Item.payload) := by
  induction keys with
  | nil => rfl
  | cons key keys ih =>
    simp only [List.map_cons, List.mapM_cons, value?_valueReply, ih]
    rfl

theorem pairUp_get? (payload : String → Option Bytes) (found : Table Bytes) (keys : List String)
    (key : String) : (pairUp found keys (keys.map payload)).get? key =
      if key ∈ keys then (payload key).or (found.get? key) else found.get? key := by
  induction keys generalizing found with
  | nil => rfl
  | cons k keys ih =>
    simp only [List.map_cons, pairUp, ih, List.mem_cons]
    cases hk : payload k with
    | none =>
      by_cases h : key = k
      · simp [h, hk]
      · simp [h]
    | some bytes =>
      simp only [Table.get?_insert]
      by_cases h : key = k
      · simp [h, hk]
      · simp [h, Ne.symm h]

end

-- ---------------------------------------------------------------------------
-- Reads
-- ---------------------------------------------------------------------------

section
variable {execute : Command → σ → Reply × σ} {held : σ → String → Option Item} {now : Instant}
  {accepts : Nat → Prop}

theorem run_send {α : Type} (commands : List Command) (read : List Reply → Except Failure α) (s : σ)
    (h : firstFailure? (executeAll execute commands s).1 = none) :
    (send commands read).run (executeAll execute) s =
      (read (executeAll execute commands s).1, (executeAll execute commands s).2) := by
  simp only [send, Proc.request, Proc.run_bind, Proc.run, h]
  rfl

theorem run_sendOne {α : Type} (command : Command) (read : Reply → Except Failure α) (s : σ)
    (h : (execute command s).1.failure? = none) :
    (sendOne command read).run (executeAll execute) s =
      (read (execute command s).1, (execute command s).2) :=
  run_send [command] _ s (by simp [executeAll, firstFailure?, h])

theorem Documented.run_get (h : Documented execute held now accepts) (key : String) (s : σ) :
    ∃ s', (store (.get key)).run (executeAll execute) s = (.ok ((held s key).map Item.payload), s') ∧
      held s' = held s := by
  obtain ⟨hreply, hsame⟩ := h.get key s
  refine ⟨_, ?_, hsame⟩
  rw [store, run_sendOne, hreply, value?_valueReply]
  rw [hreply, failure?_valueReply]

theorem Documented.run_getEach (h : Documented execute held now accepts) (keys : List String)
    (found : Table Bytes) (s : σ) :
    ∃ s', (Store.getEach (fun key => store (.get key)) found keys).run (executeAll execute) s =
        (.ok (pairUp found keys (keys.map fun key => (held s key).map Item.payload)), s') ∧
      held s' = held s := by
  induction keys generalizing found s with
  | nil => exact ⟨s, rfl, rfl⟩
  | cons key keys ih =>
    obtain ⟨s₁, hget, hsame⟩ := h.run_get key s
    simp only [Store.getEach, Proc.run_bind, hget, List.map_cons, pairUp]
    cases (held s key).map Item.payload with
    | none =>
      obtain ⟨s₂, hrest, hsame'⟩ := ih found s₁
      rw [hsame] at hrest
      exact ⟨s₂, hrest, hsame'.trans hsame⟩
    | some payload =>
      obtain ⟨s₂, hrest, hsame'⟩ := ih (found.insert key payload) s₁
      rw [hsame] at hrest
      exact ⟨s₂, hrest, hsame'.trans hsame⟩

theorem Documented.run_mget (h : Documented execute held now accepts) (keys : List String) (s : σ) :
    ∃ s', (store (.mget keys)).run (executeAll execute) s =
        (.ok (pairUp {} keys (keys.map fun key => (held s key).map Item.payload)), s') ∧
      held s' = held s := by
  cases keys with
  | nil => exact ⟨s, rfl, rfl⟩
  | cons key keys =>
    obtain ⟨hreply, hsame⟩ := h.mget (key :: keys) s
    refine ⟨_, ?_, hsame⟩
    simp only [store, List.isEmpty_cons, Bool.false_eq_true, ↓reduceIte]
    rw [run_sendOne, hreply]
    · simp only [Reply.found?, Reply.elements?, mapM_valueReplies]
      rfl
    · rw [hreply, Reply.failure?, firstFailure?_valueReplies]

-- ---------------------------------------------------------------------------
-- Writes
-- ---------------------------------------------------------------------------

def written (ttl : Duration) (now : Instant) (value : Bytes) : Item :=
  ⟨value, if ttl.isZero then none else some (now + ttlMillis ttl * 10 ^ 6)⟩

/-- Each row puts its value under its key, with the one lifetime; of a repeated key the last row counts. -/
def writtenAll (ttl : Duration) (now : Instant) (before : String → Option Item)
    (rows : List (String × Bytes)) : String → Option Item :=
  rows.foldl (fun held row => Function.update held row.1 (some (written ttl now row.2))) before

theorem Documented.batchWrite (h : Documented execute held now accepts) {ttl : Duration}
    (httl : ttl.isZero = false → accepts (ttlMillis ttl)) (row : String × Bytes) (s : σ) :
    (execute (batchWrite ttl row) s).1 = .okay ∧ held (execute (batchWrite ttl row) s).2 =
      Function.update (held s) row.1 (some (written ttl now row.2)) := by
  unfold Redis.batchWrite written
  cases hzero : ttl.isZero with
  | true => exact h.set row.1 row.2 s
  | false => exact h.setPx row.1 row.2 (httl hzero) s

theorem Documented.singleWrite (h : Documented execute held now accepts) {ttl : Duration}
    (httl : ttl.isZero = false → accepts (ttlMillis ttl)) (key : String) (value : Bytes) (s : σ) :
    (execute (singleWrite key value ttl) s).1 = .okay ∧ held (execute (singleWrite key value ttl) s).2 =
      Function.update (held s) key (some (written ttl now value)) := by
  unfold Redis.singleWrite written
  cases hzero : ttl.isZero with
  | true => exact h.set key value s
  | false => exact h.psetex key value (httl hzero) s

theorem Documented.executeAll_batchWrites (h : Documented execute held now accepts) {ttl : Duration}
    (httl : ttl.isZero = false → accepts (ttlMillis ttl)) (rows : List (String × Bytes)) (s : σ) :
    firstFailure? (executeAll execute (rows.map (Redis.batchWrite ttl)) s).1 = none ∧
    held (executeAll execute (rows.map (Redis.batchWrite ttl)) s).2 = writtenAll ttl now (held s) rows := by
  induction rows generalizing s with
  | nil => exact ⟨by simp [executeAll, firstFailure?], rfl⟩
  | cons row rows ih =>
    obtain ⟨hreply, hheld⟩ := h.batchWrite httl row s
    obtain ⟨hreplies, hrest⟩ := ih (execute (Redis.batchWrite ttl row) s).2
    simp only [List.map_cons, executeAll, firstFailure?, hreply, failure?_okay, hreplies, hrest, hheld]
    exact ⟨rfl, rfl⟩

theorem Documented.run_mset (h : Documented execute held now accepts) {ttl : Duration}
    (httl : ttl.isZero = false → accepts (ttlMillis ttl)) (rows : List (String × Bytes)) (s : σ) :
    ∃ s', (store (.mset rows ttl)).run (executeAll execute) s = (.ok (), s') ∧
      held s' = writtenAll ttl now (held s) rows := by
  cases rows with
  | nil => exact ⟨s, rfl, rfl⟩
  | cons row rows =>
    obtain ⟨hreplies, hheld⟩ := h.executeAll_batchWrites httl (row :: rows) s
    exact ⟨_, run_send _ _ s hreplies, hheld⟩

theorem Documented.run_set (h : Documented execute held now accepts) {ttl : Duration}
    (httl : ttl.isZero = false → accepts (ttlMillis ttl)) (key : String) (value : Bytes) (s : σ) :
    ∃ s', (store (.set key value ttl)).run (executeAll execute) s = (.ok (), s') ∧
      held s' = Function.update (held s) key (some (written ttl now value)) := by
  obtain ⟨hreply, hheld⟩ := h.singleWrite httl key value s
  refine ⟨_, ?_, hheld⟩
  rw [store, run_sendOne]
  rw [hreply, failure?_okay]

theorem Documented.run_setEach (h : Documented execute held now accepts) {ttl : Duration}
    (httl : ttl.isZero = false → accepts (ttlMillis ttl)) (rows : List (String × Bytes)) (s : σ) :
    ∃ s', (Store.setEach (fun key value => store (.set key value ttl)) rows).run (executeAll execute) s =
        (.ok (), s') ∧
      held s' = writtenAll ttl now (held s) rows := by
  induction rows generalizing s with
  | nil => exact ⟨s, rfl, rfl⟩
  | cons row rows ih =>
    obtain ⟨s₁, hset, hheld⟩ := h.run_set httl row.1 row.2 s
    obtain ⟨s₂, hrest, hheld'⟩ := ih s₁
    refine ⟨s₂, ?_, ?_⟩
    · simp only [Store.setEach, Proc.run_bind, hset]
      exact hrest
    · rw [hheld', hheld]
      rfl

end

-- ---------------------------------------------------------------------------
-- A server
-- ---------------------------------------------------------------------------

def Command.lifetime? : Command → Option Nat
  | .set _ _ px => px
  | .psetex _ millis _ => some millis
  | _ => none

/-- Lifetimes are signed numbers of 64 bits, and none is zero. -/
def Takes (millis : Nat) : Prop := 1 ≤ millis ∧ millis < 2 ^ 63

instance (millis : Nat) : Decidable (Takes millis) := inferInstanceAs (Decidable (_ ∧ _))

def outOfRange : String := "ERR value is not an integer or out of range"

namespace Server

def held (now : Instant) (server : Server) (key : String) : Option Item :=
  server.items.liveItem? key now

def attempt (now : Instant) (command : Command) (server : Server) : Reply × Server :=
  if ∀ millis ∈ command.lifetime?, Takes millis then server.execute now command
  else (.error outOfRange, server)

theorem held_write (server : Server) (now : Instant) (key : String) (value : Bytes)
    {deadline : Option Instant} (h : ∀ t ∈ deadline, now < t) :
    held now (server.write key value deadline) =
      Function.update (held now server) key (some ⟨value, deadline⟩) := by
  have hlive : Item.isLive ⟨value, deadline⟩ now = true := by
    cases deadline with
    | none => rfl
    | some t => simpa [Item.isLive, Item.isExpired] using h t rfl
  funext k
  simp only [held, write, liveItem_insert, Function.update_apply, Option.filter, hlive, ↓reduceIte,
    eq_comm (a := k)]

theorem value_eq (server : Server) (now : Instant) (key : String) :
    server.value now key = valueReply (held now server key) := by
  unfold value held
  cases server.items.liveItem? key now <;> rfl

theorem attempt_taken {now : Instant} {command : Command} {server : Server}
    (h : ∀ millis ∈ command.lifetime?, Takes millis) :
    attempt now command server = server.execute now command :=
  if_pos h

theorem held_lasting (server : Server) (now : Instant) (key : String) (value : Bytes) {millis : Nat}
    (h : Takes millis) :
    held now (server.write key value (some (now + millis * 10 ^ 6))) =
      Function.update (held now server) key (some ⟨value, some (now + millis * 10 ^ 6)⟩) := by
  refine held_write server now key value ?_
  rintro _ ⟨⟩
  exact Nat.lt_add_of_pos_right (Nat.mul_pos h.1 (by decide))

theorem documented (now : Instant) : Documented (attempt now) (held now) now Takes where
  get key server := by
    rw [attempt_taken (by rintro _ ⟨⟩)]
    exact ⟨value_eq server now key, rfl⟩
  mget keys server := by
    rw [attempt_taken (by rintro _ ⟨⟩)]
    exact ⟨congrArg Reply.array (List.map_congr_left fun key _ => value_eq server now key), rfl⟩
  set key value server := by
    rw [attempt_taken (by rintro _ ⟨⟩)]
    exact ⟨rfl, held_write server now key value nofun⟩
  setPx key value millis h server := by
    rw [attempt_taken (by rintro _ ⟨⟩; exact h)]
    exact ⟨rfl, held_lasting server now key value h⟩
  psetex key value millis h server := by
    rw [attempt_taken (by rintro _ ⟨⟩; exact h)]
    exact ⟨rfl, held_lasting server now key value h⟩

end Server

/-- On a server that executes its commands as documented: a batch read finds the same values as single
reads of its keys, each key's own if it has one, and neither changes what is held; a batch write, with a
lifetime that the server takes, and single writes of its rows leave the same values and deadlines. -/
theorem batches_agree {execute : Command → σ → Reply × σ} {held : σ → String → Option Item}
    {now : Instant} {accepts : Nat → Prop} (hserver : Documented execute held now accepts) (s : σ) :
    (∀ keys, ∃ found s₁ s₂,
      (store (.mget keys)).run (executeAll execute) s = (.ok found, s₁) ∧
      (Store.getEach (fun key => store (.get key)) {} keys).run (executeAll execute) s = (.ok found, s₂) ∧
      (∀ key, found.get? key = if key ∈ keys then (held s key).map Item.payload else none) ∧
      held s₁ = held s ∧ held s₂ = held s) ∧
    ∀ rows ttl, (ttl.isZero = false → accepts (ttlMillis ttl)) → ∃ s₁ s₂,
      (store (.mset rows ttl)).run (executeAll execute) s = (.ok (), s₁) ∧
      (Store.setEach (fun key value => store (.set key value ttl)) rows).run (executeAll execute) s =
        (.ok (), s₂) ∧
      held s₁ = writtenAll ttl now (held s) rows ∧ held s₂ = writtenAll ttl now (held s) rows := by
  constructor
  · intro keys
    obtain ⟨s₁, hbatch, hsame₁⟩ := hserver.run_mget keys s
    obtain ⟨s₂, hsingle, hsame₂⟩ := hserver.run_getEach keys {} s
    refine ⟨_, s₁, s₂, hbatch, hsingle, fun key => ?_, hsame₁, hsame₂⟩
    rw [pairUp_get?]
    split
    · exact Option.or_none
    · rfl
  · intro rows ttl httl
    obtain ⟨s₁, hbatch, hheld₁⟩ := hserver.run_mset httl rows s
    obtain ⟨s₂, hsingle, hheld₂⟩ := hserver.run_setEach httl rows s
    exact ⟨s₁, s₂, hbatch, hsingle, hheld₁, hheld₂⟩

def exampleServer : Server := ⟨Table.ofList [("empty", ⟨[], none⟩), ("gone", ⟨[7], some 5⟩)]⟩

theorem batches_agree_repeated : Documented (Server.attempt 10) (Server.held 10) 10 Takes ∧
    (∃ found s₁ s₂,
      (store (.mget ["empty", "gone", "empty"])).run (executeAll (Server.attempt 10)) exampleServer =
        (.ok found, s₁) ∧
      (Store.getEach (fun key => store (.get key)) {} ["empty", "gone", "empty"]).run
        (executeAll (Server.attempt 10)) exampleServer = (.ok found, s₂) ∧
      found.get? "empty" = some [] ∧ found.get? "gone" = none) ∧
    ∃ s₁ s₂,
      (store (.mset [("k", [1]), ("k", [2])] ⟨1, by decide⟩)).run (executeAll (Server.attempt 10))
        exampleServer = (.ok (), s₁) ∧
      (Store.setEach (fun key value => store (.set key value ⟨1, by decide⟩)) [("k", [1]), ("k", [2])]).run
        (executeAll (Server.attempt 10)) exampleServer = (.ok (), s₂) ∧
      Server.held 10 s₁ "k" = some ⟨[2], some 1000010⟩ ∧ Server.held 10 s₂ "k" = some ⟨[2], some 1000010⟩ := by
  have hserver := Server.documented 10
  obtain ⟨hreads, hwrites⟩ := batches_agree hserver exampleServer
  obtain ⟨found, s₁, s₂, hbatch, hsingle, hfound, -⟩ := hreads ["empty", "gone", "empty"]
  obtain ⟨t₁, t₂, hmset, hsets, hheld₁, hheld₂⟩ :=
    hwrites [("k", [1]), ("k", [2])] ⟨1, by decide⟩ fun _ => by decide
  refine ⟨hserver, ⟨found, s₁, s₂, hbatch, hsingle, hfound "empty", hfound "gone"⟩, t₁, t₂, hmset, hsets, ?_, ?_⟩
  · rw [hheld₁]
    decide
  · rw [hheld₂]
    decide

end StackedCache.Redis
