import AgentConnector.AgentRegistry

/-!
# Bearer tokens and scopes

`BearerTokenPolicy` maps the tokens found in the environment to callers. Authorization looks only
at the scopes of the caller and at the scope a command asks for; an invocation asks for the skill it
names, if it names one.
-/

namespace AgentConnector

open List

structure TokenGrant where
  callerId : CallerId
  allowedScopes : List String

inductive BearerTokenPolicyError where
  | missingEnv (name : String)
  | duplicateToken (tokenEnv : String)

def BearerTokenPolicyError.display : BearerTokenPolicyError → String
  | .missingEnv name => "missing required env var: " ++ name
  | .duplicateToken tokenEnv =>
    "duplicate token detected for token_env " ++ tokenEnv ++ " — tokens must be unique"

structure BearerTokenPolicy where
  grants : List (String × TokenGrant)
  nodup : (grants.map Prod.fst).Nodup

namespace BearerTokenPolicy

def empty : BearerTokenPolicy := ⟨[], nodup_nil⟩

variable (policy : BearerTokenPolicy)

def insert (tokenEnv token : String) (grant : TokenGrant) :
    Except BearerTokenPolicyError BearerTokenPolicy :=
  if h : token ∈ policy.grants.map Prod.fst then .error (.duplicateToken tokenEnv)
  else .ok ⟨(token, grant) :: policy.grants, nodup_cons.mpr ⟨h, policy.nodup⟩⟩

def fromEnv (env : String → Option String) (entries : List (String × TokenGrant)) :
    Except BearerTokenPolicyError BearerTokenPolicy :=
  entries.foldlM (fun policy entry => match env entry.1 with
    | none => .error (.missingEnv entry.1)
    | some token => policy.insert entry.1 token entry.2) empty

def resolve (token : String) : Option Caller :=
  (policy.grants.lookup token).map (fun grant => ⟨grant.callerId, grant.allowedScopes⟩)

def requiredScope : CoreCommand → Option String
  | .invoke request => request.skillId
  | .cancel _ _ => some "cancel"
  | .provideInput _ _ => some "provide-input"
  | .getStatus _ => some "get-status"

def authorize (_ : BearerTokenPolicy) : PolicyEngine := fun caller command =>
  if caller.scopes.isEmpty then .ok ()
  else match requiredScope command with
    | some scope =>
      if caller.scopes.any (fun s => s = scope) then .ok ()
      else .error (.invalidRequest
        ("caller " ++ caller.id.name ++ " is not authorized for scope '" ++ scope ++ "'"))
    | none => .ok ()

variable (caller : Caller) (command : CoreCommand)

/-- The callers that scopes hold off a command: they have scopes, but not the one it asks for. -/
def Denied : Prop :=
  caller.scopes ≠ [] ∧ ∃ scope, requiredScope command = some scope ∧ scope ∉ caller.scopes

theorem authorize_eq : (Denied caller command ∧ ∃ message,
      policy.authorize caller command = .error (.invalidRequest message)) ∨
    (¬Denied caller command ∧ policy.authorize caller command = .ok ()) := by
  unfold authorize Denied
  cases hscopes : caller.scopes with
  | nil => simp
  | cons first rest =>
    rw [isEmpty_cons, if_neg Bool.false_ne_true]
    cases requiredScope command with
    | none => simp
    | some scope =>
      by_cases hmem : scope ∈ first :: rest
      · have hany : (first :: rest).any (fun s => s = scope) = true :=
          any_eq_true.mpr ⟨scope, hmem, decide_eq_true rfl⟩
        refine Or.inr ⟨?_, by simp only [hany, if_true]⟩
        rintro ⟨-, s, hs, hnot⟩
        cases hs
        exact hnot hmem
      · have hany : ¬(first :: rest).any (fun s => s = scope) = true := by
          intro h
          obtain ⟨s, hs, heq⟩ := any_eq_true.mp h
          exact hmem (of_decide_eq_true heq ▸ hs)
        exact Or.inl ⟨⟨cons_ne_nil _ _, scope, rfl, hmem⟩, _, if_neg hany⟩

theorem authorize_eq_ok_iff :
    policy.authorize caller command = .ok () ↔ ¬Denied caller command := by
  rcases policy.authorize_eq caller command with ⟨hdenied, message, h⟩ | ⟨hdenied, h⟩
  · simp [h, hdenied]
  · simp [h, hdenied]

end BearerTokenPolicy

end AgentConnector
