import AgentConnector.DockerEngine

/-!
# Fallible calls against the engine

A call either ends at the first request that fails or looks at the error of a request itself. The
rules say what one request has to establish for a triple of the whole call.
-/

namespace Docker

open Concurrent (Prog)
open Sequential

abbrev Call (ε α : Type) := ExceptT ε (Prog api) α

def ask {ε : Type} (toError : String → ε) (o : Request) : Call ε (Answer o) :=
  ExceptT.mk (.op o fun r => .pure (r.mapError toError))

def attempt {ε : Type} (o : Request) : Call ε (Except String (Answer o)) :=
  ExceptT.mk (.op o fun r => .pure (.ok r))

def withError {ε ε' α : Type} (toError : ε → ε') (x : Call ε α) : Call ε' α :=
  ExceptT.mk (x.run.bind fun r => .pure (r.mapError toError))

def interrupts : Except String (Answer .ctrlC) → Bool
  | .ok pressed => pressed
  | .error _ => true

def runCancellable {ε α : Type} (x : Call ε α) (interrupted : Call ε α) : Call ε α :=
  ExceptT.mk ((interruptible Request.ctrlC interrupts x.run).bind fun r =>
    match r with
    | some result => .pure result
    | none => interrupted.run)

section Rules

variable {ε ε' α β : Type} {C : Engine → Request → Choice → Prop} {I A : Engine → Prop}
  {B : α → Engine → Prop} {x : Call ε α} {o : Request}

theorem triple_ask {toError : String → ε} {B : Answer o → Engine → Prop}
    (hI : ∀ e c, I e → A e → C e o c → I (e.perform o c).1)
    (hB : ∀ e c a, I e → A e → C e o c → (e.perform o c).2 = .ok a → B a (e.perform o c).1) :
    Triple (M := machine) C I A (ask toError o) B := by
  intro e he hA c hc
  refine ⟨hI e c he hA hc, ?_⟩
  show Ends (M := machine) _ _ (Except.mapError toError (e.perform o c).2) (e.perform o c).1
  cases hr : (e.perform o c).2 with
  | ok a => exact ⟨hI e c he hA hc, hB e c a he hA hc hr⟩
  | error err => exact hI e c he hA hc

theorem triple_attempt {B : Except String (Answer o) → Engine → Prop}
    (hI : ∀ e c, I e → A e → C e o c → I (e.perform o c).1)
    (hB : ∀ e c, I e → A e → C e o c → B (e.perform o c).2 (e.perform o c).1) :
    Triple (M := machine) C I A (attempt o : Call ε _) B :=
  fun e he hA c hc => ⟨hI e c he hA hc, hI e c he hA hc, hB e c he hA hc⟩

theorem triple_withError {toError : ε → ε'} (hx : Triple (M := machine) C I A x B) :
    Triple (M := machine) C I A (withError toError x) B := by
  intro e hI hA
  refine wp_bind ((hx e hI hA).mono fun r e' h => ?_)
  cases r with
  | ok a => exact h
  | error err => exact h

theorem triple_runCancellable (hx : Triple (M := machine) C I A x B)
    (hy : Triple (M := machine) C I (fun _ => True) y B) :
    Triple (M := machine) C I A (runCancellable x y) B := by
  intro e hI hA
  refine wp_bind (wp_interruptible (fun s c => ?_) hI (fun s' hs' => hy s' hs' trivial)
    ((hx e hI hA).mono fun r e' h => ?_))
  · rcases Engine.perform_state s .ctrlC c with h | h
    · exact h
    · exact h
  · cases r with
    | ok a => exact h
    | error err => exact h

end Rules

end Docker
