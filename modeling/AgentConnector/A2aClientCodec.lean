import AgentConnector.A2aClientDriver
import AgentConnector.WireEncoding

/-!
# Parts and errors of the A2A client

Parts survive both dialects, a JSON part as its text. An error that says that a method is unknown is
recognised twice: by the probe for the dialect, which ignores case and underscores, and by the
client when it classifies the error, which looks for the marker of the gateway. The second finds
only some of what the first finds.
-/

namespace AgentConnector.A2aClient

open List

def jsonAsText : Part → Part
  | .json value => .text value.render
  | p => p

theorem map_normalizedToPart (parts : List Part) :
    (corePartsToNormalized parts).map normalizedToPart = parts.map jsonAsText := by
  rw [corePartsToNormalized, map_map]
  refine map_congr_left (fun p _ => ?_)
  cases p <;> rfl

/-- What either dialect reads back from the parts that it has written. -/
theorem parts_round_trip (parts : List Part) :
    (((corePartsToNormalized parts).map Sdk.partToSdk).map Sdk.sdkPartToNormalized).map
        normalizedToPart = parts.map jsonAsText ∧
      (((corePartsToNormalized parts).map Spec.partToSpec).filterMap
        Spec.specPartToNormalized).map normalizedToPart = parts.map jsonAsText := by
  have hshaped := shaped_corePartsToNormalized parts
  rw [map_sdkPart hshaped, filterMap_specPart hshaped]
  exact ⟨map_normalizedToPart parts, map_normalizedToPart parts⟩

/-! ### Unknown methods -/

/-- `str::to_lowercase`: what a character becomes between what stands before and after it. ASCII
characters do not depend on their place. -/
structure Lowercase where
  char : List Char → Char → List Char → List Char
  char_ascii : ∀ before c after, c.toNat < 128 → char before c after = [c.toLower]

namespace Lowercase

variable (L : Lowercase)

def chars : List Char → List Char → List Char
  | _, [] => []
  | before, c :: after => L.char before c after ++ chars (before ++ [c]) after

theorem exists_chars_append (before a rest : List Char) :
    ∃ front, L.chars before (a ++ rest) = front ++ L.chars (before ++ a) rest := by
  induction a generalizing before with
  | nil => exact ⟨[], by simp⟩
  | cons c a ih =>
    obtain ⟨front, hfront⟩ := ih (before ++ [c])
    exact ⟨L.char before c (a ++ rest) ++ front, by simp [chars, hfront]⟩

theorem chars_ascii (before a rest : List Char) (ha : ∀ c ∈ a, c.toNat < 128 ∧ c.toLower = c) :
    L.chars before (a ++ rest) = a ++ L.chars (before ++ a) rest := by
  induction a generalizing before with
  | nil => simp
  | cons c a ih =>
    obtain ⟨⟨hascii, hlower⟩, ha⟩ := forall_mem_cons.mp ha
    rw [cons_append, chars, L.char_ascii _ _ _ hascii, hlower, ih _ ha]
    simp

/-- A part that is in lower case already is found again. -/
theorem infix_chars {a s : List Char} (h : a <:+: s)
    (ha : ∀ c ∈ a, c.toNat < 128 ∧ c.toLower = c) : a <:+: L.chars [] s := by
  obtain ⟨before, after, rfl⟩ := h
  rw [append_assoc]
  obtain ⟨front, hfront⟩ := L.exists_chars_append [] before (a ++ after)
  rw [hfront, L.chars_ascii _ a after ha, ← append_assoc]
  exact ⟨front, _, rfl⟩

end Lowercase

theorem containsStr_iff {s pattern : String} :
    containsStr s pattern = true ↔ pattern.toList <:+: s.toList := by
  simp [containsStr, infix_iff_prefix_suffix, and_comm]

def spaceUnderscore (c : Char) : Char := if c = '_' then ' ' else c

def normalized (L : Lowercase) (message : String) : String :=
  String.ofList ((L.chars [] message.toList).map spaceUnderscore)

def looksLikeMethodNotFound (L : Lowercase) (code : ℤ) (message : String) : Bool :=
  code == -32601 || containsStr (normalized L message) "method not found"

def methodNotFoundMarker : String := "method_not_found:"

def fromJsonrpcError (code : ℤ) (message method wireFormat : String) : A2aClientError :=
  if code = -32601 ∨ containsStr message methodNotFoundMarker then
    .methodNotFound method wireFormat code message
  else if code = -32010 then .contextLost message
  else .remoteError code message

def A2aClientError.IsMethodNotFound : A2aClientError → Prop
  | .methodNotFound _ _ _ _ => True
  | _ => False

section

variable (L : Lowercase) (code : ℤ) (message method wireFormat : String)

theorem isMethodNotFound_iff : (fromJsonrpcError code message method wireFormat).IsMethodNotFound ↔
    code = -32601 ∨ containsStr message methodNotFoundMarker := by
  unfold fromJsonrpcError
  split_ifs with h h' <;> simp [A2aClientError.IsMethodNotFound, h]

theorem looksLikeMethodNotFound_iff : looksLikeMethodNotFound L code message = true ↔
    code = -32601 ∨ containsStr (normalized L message) "method not found" := by
  simp [looksLikeMethodNotFound]

variable {message} in
theorem normalized_of_marker (h : containsStr message methodNotFoundMarker = true) :
    containsStr (normalized L message) "method not found" = true := by
  have hascii : ∀ c ∈ methodNotFoundMarker.toList, c.toNat < 128 ∧ c.toLower = c :=
    forall_iff_forall_mem.mp (by decide)
  have hmarker := (L.infix_chars (containsStr_iff.mp h) hascii).map spaceUnderscore
  have hwords : "method not found".toList <:+: methodNotFoundMarker.toList.map spaceUnderscore :=
    ⟨[], [':'], by decide⟩
  have hnormalized : (normalized L message).toList =
      (L.chars [] message.toList).map spaceUnderscore := String.toList_ofList
  rw [containsStr_iff, hnormalized]
  exact hwords.trans hmarker

/-- The probe and the client agree unless the message spells the words in another way than the
marker and the code does not decide. -/
theorem classifications_agree_iff : (looksLikeMethodNotFound L code message = true ↔
      (fromJsonrpcError code message method wireFormat).IsMethodNotFound) ↔
    code = -32601 ∨ containsStr message methodNotFoundMarker = true ∨
      containsStr (normalized L message) "method not found" = false := by
  rw [looksLikeMethodNotFound_iff, isMethodNotFound_iff, ← Bool.not_eq_true]
  have hmarker : containsStr message methodNotFoundMarker = true →
    containsStr (normalized L message) "method not found" = true := normalized_of_marker L
  generalize containsStr message methodNotFoundMarker = marked at hmarker ⊢
  generalize containsStr (normalized L message) "method not found" = worded at hmarker ⊢
  tauto

end

/-- Lower case of ASCII text. -/
def asciiLowercase : Lowercase := ⟨fun _ c _ => [c.toLower], fun _ _ _ _ => rfl⟩

theorem standard_message_classified_apart :
    looksLikeMethodNotFound asciiLowercase (-32000) "Method not found" = true ∧
      fromJsonrpcError (-32000) "Method not found" "SendMessage" "sdk" =
        .remoteError (-32000) "Method not found" := by
  decide +kernel

end AgentConnector.A2aClient
