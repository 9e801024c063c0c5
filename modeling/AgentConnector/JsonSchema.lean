import AgentConnector.JsonAccess

/-!
# JSON Schema

The keywords of JSON Schema (draft 7) as predicates on JSON values. A keyword that does not apply to
a kind of value accepts it, and the keywords of one schema are joined by `allOf`. Formats are
annotations.
-/

namespace AgentConnector

/-- A decimal number `num / den`. -/
structure Decimal where
  num : ℤ
  den : ℕ

namespace Decimal

def isInteger (x : Decimal) : Bool := x.num % x.den = 0

def geInt (x : Decimal) (n : ℤ) : Bool := n * x.den ≤ x.num

def leInt (x : Decimal) (n : ℤ) : Bool := x.num ≤ n * x.den

def digits (cs : List Char) : ℕ := cs.foldl (fun n c => 10 * n + (c.toNat - '0'.toNat)) 0

/-- `mantissa * 10 ^ exponent`. -/
def scale (mantissa exponent : ℤ) : Decimal :=
  ⟨mantissa * 10 ^ exponent.toNat, 10 ^ (-exponent).toNat⟩

/-- The exponent of a number literal, from its `e` on. -/
def parseExponent : List Char → ℤ
  | _ :: '-' :: cs => -(digits cs : ℤ)
  | _ :: '+' :: cs => digits cs
  | _ :: cs => digits cs
  | [] => 0

/-- The value of a number literal. -/
def parse (literal : String) : Decimal :=
  let (sign, cs) := match literal.toList with
    | '-' :: cs => (-1, cs)
    | cs => (1, cs)
  let (whole, rest) := cs.span Char.isDigit
  let (fraction, rest) := match rest with
    | '.' :: cs => cs.span Char.isDigit
    | cs => ([], cs)
  scale (sign * (digits (whole ++ fraction) : ℤ)) (parseExponent rest - (fraction.length : ℤ))

example : (parse "40.0").isInteger = true := by decide +kernel
example : (parse "-2.5e-1").num = -25 ∧ (parse "-2.5e-1").den = 100 := by decide +kernel

end Decimal

def Json.number? : Json → Option Decimal
  | .int n => some ⟨n, 1⟩
  | .float literal => some (.parse literal)
  | _ => none

inductive JsonType where
  | null
  | boolean
  | integer
  | string
  | array
  | object
  deriving DecidableEq

abbrev JsonSchema := Json → Bool

namespace JsonSchema

def hasType (v : Json) : JsonType → Bool
  | .null => match v with
    | .null => true
    | _ => false
  | .boolean => match v with
    | .bool _ => true
    | _ => false
  | .integer => v.number?.any Decimal.isInteger
  | .string => v.asStr.isSome
  | .array => v.asArray.isSome
  | .object => match v with
    | .object _ => true
    | _ => false

def type (ts : List JsonType) : JsonSchema := fun v => ts.any (hasType v)

def constNull : JsonSchema := fun v => hasType v .null

def constBool (b : Bool) : JsonSchema
  | .bool c => b = c
  | _ => false

def constInt (n : ℤ) : JsonSchema := fun v => v.number?.any (fun x => x.geInt n && x.leInt n)

def constString (s : String) : JsonSchema := fun v => v.asStr = some s

def enumString (ss : List String) : JsonSchema := fun v => v.asStr.any (fun s => ss.contains s)

def minLength (n : ℕ) : JsonSchema := fun v => v.asStr.all (fun s => n ≤ s.length)

def maxLength (n : ℕ) : JsonSchema := fun v => v.asStr.all (fun s => s.length ≤ n)

def minimum (n : ℤ) : JsonSchema := fun v => v.number?.all (fun x => x.geInt n)

def maximum (n : ℤ) : JsonSchema := fun v => v.number?.all (fun x => x.leInt n)

def onFields (p : List (String × Json) → Bool) : JsonSchema
  | .object fields => p fields
  | _ => true

def required (keys : List String) : JsonSchema :=
  onFields (fun fields => keys.all (fun key => (fields.lookup key).isSome))

def properties (ps : List (String × JsonSchema)) : JsonSchema :=
  onFields (fun fields => ps.all (fun p => (fields.lookup p.1).all p.2))

/-- `additionalProperties: false` beside properties of these names. -/
def noOthers (keys : List String) : JsonSchema :=
  onFields (fun fields => fields.all (fun field => keys.contains field.1))

def maxProperties (n : ℕ) : JsonSchema := onFields (fun fields => fields.length ≤ n)

def allOf (schemas : List JsonSchema) : JsonSchema := fun v => schemas.all (fun s => s v)

def ifThen (condition consequence : JsonSchema) : JsonSchema :=
  fun v => !condition v || consequence v

end JsonSchema

end AgentConnector
