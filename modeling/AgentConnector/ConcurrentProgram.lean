import Mathlib.Tactic

/-!
# Resumable programs over atomic operations

A program is either finished or about to perform one atomic operation, after which it continues
with the reply. The scheduler may interleave other programs between any two operations, so an
asynchronous function is written once, in `do` notation, and every interleaving of it is covered.
`embed` reads a program over one signature as a program over a larger one, and `Everywhere P`
states that every operation a program can ever issue satisfies `P`.
-/

namespace Concurrent

structure Signature where
  Op : Type
  Reply : Op → Type

inductive Prog (σ : Signature) (α : Type) where
  | pure : α → Prog σ α
  | op : (o : σ.Op) → (σ.Reply o → Prog σ α) → Prog σ α

namespace Prog

variable {σ τ : Signature} {α β : Type}

def bind : Prog σ α → (α → Prog σ β) → Prog σ β
  | .pure a, f => f a
  | .op o k, f => .op o (fun r => (k r).bind f)

instance : Monad (Prog σ) where
  pure := Prog.pure
  bind := Prog.bind

def perform (o : σ.Op) : Prog σ (σ.Reply o) := .op o .pure

@[simp] theorem pure_bind' (a : α) (f : α → Prog σ β) : (Prog.pure a).bind f = f a := rfl

@[simp] theorem op_bind (o : σ.Op) (k : σ.Reply o → Prog σ α) (f : α → Prog σ β) :
    (Prog.op o k).bind f = .op o (fun r => (k r).bind f) := rfl

/-- The value of a finished program. -/
def result? : Prog σ α → Option α
  | .pure a => some a
  | .op _ _ => none

def finished (p : Prog σ α) : Bool := p.result?.isSome

variable {p : Prog σ α}

theorem eq_pure_of_result? (h : p.result? = some a) : p = .pure a := by
  cases p with
  | pure b => exact congrArg Prog.pure (Option.some.inj h)
  | op o k => cases h

/-- A way of reading the operations of `σ` as operations of `τ` with the same replies. -/
structure Embedding (σ τ : Signature) where
  op : σ.Op → τ.Op
  reply : ∀ o, τ.Reply (op o) → σ.Reply o

def embed (e : Embedding σ τ) : Prog σ α → Prog τ α
  | .pure a => .pure a
  | .op o k => .op (e.op o) (fun r => (k (e.reply o r)).embed e)

/-- Every operation the program can issue, on any replies, satisfies `P`. -/
def Everywhere (P : σ.Op → Prop) : Prog σ α → Prop
  | .pure _ => True
  | .op o k => P o ∧ ∀ r, (k r).Everywhere P

variable {P : σ.Op → Prop} {f : α → Prog σ β}

theorem everywhere_bind (hp : p.Everywhere P) (hf : ∀ a, (f a).Everywhere P) :
    (p.bind f).Everywhere P := by
  induction p with
  | pure a => exact hf a
  | op o k ih => exact ⟨hp.1, fun r => ih r (hp.2 r)⟩

/-- Every value the program can return, on any replies, satisfies `Q`. -/
def Returns (Q : α → Prop) : Prog σ α → Prop
  | .pure a => Q a
  | .op _ k => ∀ r, (k r).Returns Q

theorem returns_true (p : Prog σ α) : p.Returns (fun _ => True) := by
  induction p with
  | pure a => trivial
  | op o k ih => exact ih

theorem returns_bind {R : α → Prop} {Q : β → Prop} (hp : p.Returns R)
    (hf : ∀ a, R a → (f a).Returns Q) : (p.bind f).Returns Q := by
  induction p with
  | pure a => exact hf a hp
  | op o k ih => exact fun r => ih r (hp r)

theorem returns_mono {R Q : α → Prop} (h : ∀ a, R a → Q a) (hp : p.Returns R) : p.Returns Q := by
  induction p with
  | pure a => exact h a hp
  | op o k ih => exact fun r => ih r (hp r)

theorem bind_congr {R : α → Prop} {g : α → Prog σ β} (hr : p.Returns R)
    (h : ∀ a, R a → f a = g a) : p.bind f = p.bind g := by
  induction p with
  | pure a => exact h a hr
  | op o k ih => exact congrArg (Prog.op o) (funext fun r => ih r (hr r))

theorem everywhere_try {ε : Type} {x : ExceptT ε (Prog σ) α} {f : α → ExceptT ε (Prog σ) β}
    (hx : x.run.Everywhere P) (hf : ∀ a, (f a).run.Everywhere P) : (x >>= f).run.Everywhere P := by
  refine everywhere_bind hx (fun r => ?_)
  cases r with
  | ok a => exact hf a
  | error e => trivial

theorem everywhere_perform (h : P o) : (perform o).Everywhere P := ⟨h, fun _ => trivial⟩

theorem everywhere_true (p : Prog σ α) (h : ∀ o, P o) : p.Everywhere P := by
  induction p with
  | pure a => trivial
  | op o k ih => exact ⟨h o, ih⟩

theorem everywhere_mono {Q : σ.Op → Prop} (hPQ : ∀ o, P o → Q o) (hp : p.Everywhere P) :
    p.Everywhere Q := by
  induction p with
  | pure a => trivial
  | op o k ih => exact ⟨hPQ o hp.1, fun r => ih r (hp.2 r)⟩

theorem everywhere_embed {P : τ.Op → Prop} (hp : p.Everywhere (fun o => P (e.op o))) :
    (p.embed e).Everywhere P := by
  induction p with
  | pure a => trivial
  | op o k ih => exact ⟨hp.1, fun r => ih (e.reply o r) (hp.2 (e.reply o r))⟩

end Prog

end Concurrent
