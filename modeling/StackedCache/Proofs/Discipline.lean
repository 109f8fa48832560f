import StackedCache.Proc

/-!
# Disciplines

A discipline says, for each state of knowledge, which requests a program may
make, and which replies it has to be ready for and what it knows after each.
`Proc.Keeps` says that a program asks for nothing else to its end; the laws
below follow the ways in which programs are put together.
-/

namespace StackedCache

structure Discipline (S : Signature) (κ : Type) where
  permits : κ → S.Request → Prop
  /-- Whether a reply may come, and leave the program with a state of knowledge. -/
  admits : κ → (r : S.Request) → S.Reply r → κ → Prop

abbrev Exchange (S : Signature) : Type := (r : S.Request) × S.Reply r

namespace Proc

variable {S T : Signature} {κ α β : Type} {D : Discipline S κ} {k k' : κ}

/-- Whatever replies come, the program makes permitted requests only, and what it ends with
meets `post`. -/
def Keeps (D : Discipline S κ) (post : κ → α → Prop) : Proc S α → κ → Prop
  | .done a, k => post k a
  | .ask r next, k => D.permits k r ∧ ∀ reply k', D.admits k r reply k' → (next reply).Keeps D post k'

/-- The program makes the requests of the exchanges, one after the other, and given their
replies it ends with `a`. -/
inductive Ends : Proc S α → List (Exchange S) → α → Prop
  | done (a : α) : Ends (.done a) [] a
  | ask {r : S.Request} {next : S.Reply r → Proc S α} {reply : S.Reply r} {rest : List (Exchange S)}
    {a : α} (h : (next reply).Ends rest a) : Ends (.ask r next) (⟨r, reply⟩ :: rest) a

theorem Keeps.mono {p : Proc S α} {post post' : κ → α → Prop} (h : p.Keeps D post k)
    (hpost : ∀ k a, post k a → post' k a) : p.Keeps D post' k := by
  induction p generalizing k with
  | done a => exact hpost k a h
  | ask r next ih => exact ⟨h.1, fun reply k' ha => ih reply (h.2 reply k' ha)⟩

theorem Keeps.bind {p : Proc S α} {f : α → Proc S β} {mid : κ → α → Prop} {post : κ → β → Prop}
    (h : p.Keeps D mid k) (hf : ∀ k a, mid k a → (f a).Keeps D post k) :
    (p >>= f).Keeps D post k := by
  induction p generalizing k with
  | done a => exact hf k a h
  | ask r next ih => exact ⟨h.1, fun reply k' ha => ih reply (h.2 reply k' ha)⟩

/-- With more knowledge a program may ask for more and has to be ready for less. -/
theorem Keeps.informed {p : Proc S α} {post : κ → α → Prop} (h : p.Keeps D post k)
    (hpermits : ∀ r, D.permits k r → D.permits k' r)
    (hadmits : ∀ r reply l, D.admits k' r reply l → D.admits k r reply l)
    (hpost : ∀ a, post k a → post k' a) : p.Keeps D post k' := by
  cases p with
  | done a => exact hpost a h
  | ask r next => exact ⟨hpermits r h.1, fun reply l ha => h.2 reply l (hadmits r reply l ha)⟩

/-- A program that keeps a discipline keeps each one that can follow it: what the first permits the
second does, and what the second admits the first does as well, leaving related knowledge. -/
theorem Keeps.simulate {p : Proc S α} {κ' : Type} {E : Discipline S κ'} {R : κ → κ' → Prop} {l : κ'}
    {post : κ → α → Prop} {post' : κ' → α → Prop} (h : p.Keeps D post k) (hR : R k l)
    (hpermits : ∀ k l r, R k l → D.permits k r → E.permits l r)
    (hadmits : ∀ k l r reply l', R k l → D.permits k r → E.admits l r reply l' →
      ∃ k', R k' l' ∧ D.admits k r reply k')
    (hpost : ∀ k l a, R k l → post k a → post' l a) : p.Keeps E post' l := by
  induction p generalizing k l with
  | done a => exact hpost k l a hR h
  | ask r next ih =>
    refine ⟨hpermits k l r hR h.1, fun reply l' hl => ?_⟩
    obtain ⟨k', hR', ha⟩ := hadmits k l r reply l' hR h.1 hl
    exact ih reply (h.2 reply k' ha) hR'

theorem Keeps.forget {p : Proc S α} {κ' : Type} {E : Discipline S κ'} {f : κ → κ'}
    {post : κ → α → Prop} {post' : κ' → α → Prop} (h : p.Keeps D post k)
    (hpermits : ∀ k r, D.permits k r → E.permits (f k) r)
    (hadmits : ∀ k r reply l, D.permits k r → E.admits (f k) r reply l →
      ∃ k', f k' = l ∧ D.admits k r reply k')
    (hpost : ∀ k a, post k a → post' (f k) a) : p.Keeps E post' (f k) := by
  refine h.simulate (R := fun k l => f k = l) rfl ?_ ?_ ?_
  · rintro k _ r rfl
    exact hpermits k r
  · rintro k _ r reply l rfl
    exact hadmits k r reply l
  · rintro k _ a rfl
    exact hpost k a

theorem Keeps.translate {p : Proc S α} {post : κ → α → Prop} {E : Discipline T κ}
    {meaning : (r : S.Request) → Proc T (S.Reply r)} (h : p.Keeps D post k)
    (hm : ∀ k r, D.permits k r → (meaning r).Keeps E (fun k' reply => D.admits k r reply k') k) :
    (p.translate meaning).Keeps E post k := by
  induction p generalizing k with
  | done a => exact h
  | ask r next ih => exact (hm k r h.1).bind fun k' reply ha => ih reply (h.2 reply k' ha)

end Proc

end StackedCache
