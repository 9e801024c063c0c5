import AgentConnector.TaskModel

/-!
# Reading and writing JSON values

The accessors of `serde_json::Value` that the drivers use. An object is the list of its fields in
the order in which they were inserted.
-/

namespace AgentConnector

namespace Json

def get (v : Json) (key : String) : Option Json :=
  match v with
  | .object fields => fields.lookup key
  | _ => none

def asStr : Json → Option String
  | .string s => some s
  | _ => none

def asArray : Json → Option (List Json)
  | .array items => some items
  | _ => none

/-- A field that is a string. -/
def getStr (v : Json) (key : String) : Option String := (v.get key).bind asStr

def getArray (v : Json) (key : String) : Option (List Json) := (v.get key).bind asArray

def asBool : Json → Option Bool
  | .bool b => some b
  | _ => none

def asUInt (bound : ℕ) : Json → Option ℕ
  | .int n => if 0 ≤ n ∧ n < bound then some n.toNat else none
  | _ => none

theorem asUInt_int (h : n < bound) : asUInt bound (.int n) = some n := by
  simp [asUInt, h]

/-- A list, each item read by `read`. -/
def asList {α : Type} (read : Json → Option α) (v : Json) : Option (List α) :=
  v.asArray.bind (fun items => items.mapM read)

theorem mapM_map_of_inverse {α β : Type} {read : β → Option α} {write : α → β}
    (h : ∀ a, read (write a) = some a) (l : List α) : (l.map write).mapM read = some l := by
  induction l with
  | nil => rfl
  | cons a l ih => simp [List.mapM_cons, h, ih]

theorem asList_array_map {α : Type} {read : Json → Option α} {write : α → Json}
    (h : ∀ a, read (write a) = some a) (l : List α) :
    asList read (.array (l.map write)) = some l :=
  mapM_map_of_inverse h l

def asOption {α : Type} (read : Json → Option α) : Option Json → Option (Option α)
  | none | some .null => some none
  | some v => (read v).map some

def parseIndex (token : String) : Option ℕ :=
  match token.toList with
  | [] => none
  | ['0'] => some 0
  | '0' :: _ => none
  | chars =>
    if chars.all Char.isDigit then
      some (chars.foldl (fun n c => 10 * n + (c.toNat - '0'.toNat)) 0)
    else none

def pointer : Json → List String → Option Json
  | v, [] => some v
  | .object fields, token :: rest => (fields.lookup token).bind (fun v => pointer v rest)
  | .array items, token :: rest =>
    (parseIndex token).bind (fun i => items[i]?.bind (fun v => pointer v rest))
  | _, _ :: _ => none

/-- `json!` of an optional string. -/
def ofOption : Option String → Json
  | some s => .string s
  | none => .null

def optional (key : String) (v : Option Json) : List (String × Json) := (v.map (key, ·)).toList

def escapeChar (c : Char) : String :=
  if c = '"' then "\\\""
  else if c = '\\' then "\\\\"
  else if c.toNat = 8 then "\\b"
  else if c.toNat = 9 then "\\t"
  else if c.toNat = 10 then "\\n"
  else if c.toNat = 12 then "\\f"
  else if c.toNat = 13 then "\\r"
  else if c.toNat < 32 then "\\u00" ++ (BitVec.ofNat 8 c.toNat).toHex
  else c.toString

def renderString (s : String) : String :=
  "\"" ++ String.join (s.toList.map escapeChar) ++ "\""

mutual

/-- `Value::to_string`. -/
def render : Json → String
  | .null => "null"
  | .bool b => if b then "true" else "false"
  | .int n => toString n
  | .float literal => literal
  | .string s => renderString s
  | .array items => "[" ++ ",".intercalate (renderItems items) ++ "]"
  | .object fields => "\x7b" ++ ",".intercalate (renderFields fields) ++ "\x7d"

def renderItems : List Json → List String
  | [] => []
  | v :: rest => v.render :: renderItems rest

def renderFields : List (String × Json) → List String
  | [] => []
  | (key, v) :: rest => (renderString key ++ ":" ++ v.render) :: renderFields rest

end

end Json

end AgentConnector
