/-!
# Programs that ask

A program is a finite tree of requests to its surroundings, each followed by
what the program does with the reply. What a request means is not part of the
program: `run` answers requests from a state, one after the other, and
`translate` answers each request by a program of a lower level.
-/

namespace StackedCache

structure Signature where
  Request : Type
  Reply : Request → Type

inductive Proc (S : Signature) (α : Type) : Type where
  | done (a : α)
  | ask (request : S.Request) (next : S.Reply request → Proc S α)

namespace Proc

variable {S T : Signature} {α β γ σ : Type}

def bind : Proc S α → (α → Proc S β) → Proc S β
  | .done a, f => f a
  | .ask r next, f => .ask r fun reply => (next reply).bind f

instance : Monad (Proc S) where
  pure := .done
  bind := bind

theorem bind_done (p : Proc S α) : p.bind .done = p := by
  induction p with
  | done a => rfl
  | ask r next ih => simp only [bind, ih]

theorem bind_assoc (p : Proc S α) (f : α → Proc S β) (g : β → Proc S γ) :
    (p.bind f).bind g = p.bind fun a => (f a).bind g := by
  induction p with
  | done a => rfl
  | ask r next ih => simp only [bind, ih]

theorem map_eq (f : α → β) (p : Proc S α) : f <$> p = p.bind (.done ∘ f) := rfl

instance : LawfulMonad (Proc S) :=
  LawfulMonad.mk' _ bind_done (fun _ _ => rfl) bind_assoc

def request (r : S.Request) : Proc S (S.Reply r) := .ask r .done

/-- One request after the other, each answered from the state at that moment. -/
def run (answer : (r : S.Request) → σ → S.Reply r × σ) : Proc S α → σ → α × σ
  | .done a, s => (a, s)
  | .ask r next, s => (next (answer r s).1).run answer (answer r s).2

theorem run_bind (answer : (r : S.Request) → σ → S.Reply r × σ) (p : Proc S α)
    (f : α → Proc S β) (s : σ) :
    (p >>= f).run answer s = (f (p.run answer s).1).run answer (p.run answer s).2 := by
  induction p generalizing s with
  | done a => rfl
  | ask r next ih => exact ih _ _

def translate (meaning : (r : S.Request) → Proc T (S.Reply r)) : Proc S α → Proc T α
  | .done a => .done a
  | .ask r next => (meaning r).bind fun reply => (next reply).translate meaning

end Proc

end StackedCache
