import StackedCache.Proofs.Concurrency.Clients
import StackedCache.Proofs.Provenance

/-!
# Batch calls key by key

A batch call that reaches its layer key by key is told what it is told of its
keys one by one, and writes its items one by one. So where a discipline cares
only for what calls learn from layers and what they write, it is kept whichever
way the batch calls go.
-/

namespace StackedCache.Concurrency

open CacheProc

def slotwise {Loader : Type} (each : Nat → Bool) : (r : CacheRequest Loader) → CacheProc Loader r.Reply
  | .layer slot op => if each slot then keywise (.layer slot op) else CacheProc.ask (.layer slot op)
  | r => CacheProc.ask r

/-- All that a call on a layer does to the knowledge is that the exchange is heard of, and a batch is
no more than its parts. -/
structure Learns {κ : Type} (D : Discipline (CacheCalls ScriptedLoader) κ) (Before : κ → κ → Prop)
    (Hears : κ → CacheExchange → Prop) : Prop where
  refl (k : κ) : Before k k
  trans {k mid later : κ} : Before k mid → Before mid later → Before k later
  admits {k later : κ} {slot : Nat} {op : LayerOp} {reply : op.Reply} :
    D.admits k (.layer slot op) reply later ↔ Before k later ∧ Hears later ⟨.layer slot op, reply⟩
  kept {k later : κ} {e : CacheExchange} : Before k later → Hears k e → Hears later e
  lookup {k later : κ} {slot : Nat} {keys : List String} {key : String} :
    D.permits k (.layer slot (.mget keys)) → Before k later → D.permits later (.layer slot (.get key))
  write {k later : κ} {slot : Nat} {items : Table Bytes} {ttl : Duration} {key : String}
    {payload : Bytes} : D.permits k (.layer slot (.mset items ttl)) → Before k later →
    (key, payload) ∈ items.rows → D.permits later (.layer slot (.set key payload ttl))
  gathered {k : κ} {slot : Nat} {keys : List String} {batch : BatchHits} :
    (∀ key payload, batch.hits.get? key = some payload →
      ∃ remaining, Hears k ⟨.layer slot (.get key), .ok (some ⟨payload, remaining⟩)⟩) →
    Hears k ⟨.layer slot (.mget keys), .ok batch⟩
  unread {k : κ} {slot : Nat} {keys : List String} {e : CacheError} :
    Hears k ⟨.layer slot (.mget keys), .error e⟩
  written {k : κ} {slot : Nat} {items : Table Bytes} {ttl : Duration} {reply : Except CacheError Unit} :
    Hears k ⟨.layer slot (.mset items ttl), reply⟩

namespace Learns

variable {κ α : Type} {D : Discipline (CacheCalls ScriptedLoader) κ} {Before : κ → κ → Prop}
  {Hears : κ → CacheExchange → Prop} {k : κ}

theorem keeps_getEach (hD : Learns D Before Hears) (slot : Nat) (keys : List String)
    (hpermits : ∀ key later, Before k later → D.permits later (.layer slot (.get key))) :
    (getEach slot keys : CacheProc ScriptedLoader _).Keeps D (fun later result => Before k later ∧
      ∀ batch, result = .ok batch → ∀ key payload, batch.hits.get? key = some payload →
        ∃ remaining, Hears later ⟨.layer slot (.get key), .ok (some ⟨payload, remaining⟩)⟩) k := by
  induction keys generalizing k with
  | nil =>
    refine ⟨hD.refl k, ?_⟩
    rintro batch ⟨⟩ key payload ⟨⟩
  | cons key keys ih =>
    refine ⟨hpermits key k (hD.refl k), fun reply mid hreply => ?_⟩
    obtain ⟨hmid, hheard⟩ := hD.admits.mp hreply
    cases reply with
    | error e => exact ⟨hmid, by simp⟩
    | ok found =>
      refine (ih fun key later hlater => hpermits key later (hD.trans hmid hlater)).bind ?_
      rintro later result ⟨hlater, hhits⟩
      have hdone := hD.trans hmid hlater
      cases result with
      | error e => exact ⟨hdone, by simp⟩
      | ok batch =>
        cases found with
        | none =>
          refine ⟨hdone, ?_⟩
          rintro _ ⟨⟩
          exact hhits batch rfl
        | some entry =>
          refine ⟨hdone, ?_⟩
          rintro _ ⟨⟩ k payload hget
          simp only [Table.get?_insert] at hget
          split at hget
          · rename_i hk
            cases hget
            subst hk
            exact ⟨entry.remaining, hD.kept hlater hheard⟩
          · exact hhits batch rfl k payload hget

theorem keeps_setEach (hD : Learns D Before Hears) (slot : Nat) (ttl : Duration)
    {rows : List (String × Bytes)} (hpermits : ∀ key payload later, (key, payload) ∈ rows →
      Before k later → D.permits later (.layer slot (.set key payload ttl))) :
    (setEach slot ttl rows : CacheProc ScriptedLoader _).Keeps D (fun later _ => Before k later) k := by
  induction rows generalizing k with
  | nil => exact hD.refl k
  | cons row rows ih =>
    refine ⟨hpermits row.1 row.2 k List.mem_cons_self (hD.refl k), fun reply mid hreply => ?_⟩
    obtain ⟨hmid, -⟩ := hD.admits.mp hreply
    cases reply with
    | error e => exact hmid
    | ok _ =>
      refine Proc.Keeps.mono (ih fun key payload later hmem hlater => ?_)
        fun later _ hlater => hD.trans hmid hlater
      exact hpermits key payload later (List.mem_cons_of_mem _ hmem) (hD.trans hmid hlater)

theorem keeps_slotwise (hD : Learns D Before Hears) {p : CacheProc ScriptedLoader α}
    {post : κ → α → Prop} (h : p.Keeps D post k) (each : Nat → Bool) :
    (p.translate (slotwise each)).Keeps D post k := by
  refine h.translate fun k r hr => ?_
  have hask : (CacheProc.ask r).Keeps D (fun later reply => D.admits k r reply later) k :=
    ⟨hr, fun _ _ ha => ha⟩
  cases r with
  | layer slot op =>
    simp only [slotwise]
    split
    · cases op with
      | mget keys =>
        have hgets := hD.keeps_getEach slot keys fun _ _ hlater => hD.lookup hr hlater
        refine Proc.Keeps.mono hgets ?_
        rintro later result ⟨hlater, hhits⟩
        cases result with
        | error e => exact hD.admits.mpr ⟨hlater, hD.unread⟩
        | ok batch => exact hD.admits.mpr ⟨hlater, hD.gathered (hhits batch rfl)⟩
      | mset items ttl =>
        have hsets := hD.keeps_setEach slot ttl fun key payload later hmem hlater =>
          hD.write hr hlater hmem
        exact Proc.Keeps.mono hsets fun later result hlater => hD.admits.mpr ⟨hlater, hD.written⟩
      | _ => exact hask
    · exact hask
  | _ => exact hask

end Learns

end StackedCache.Concurrency
