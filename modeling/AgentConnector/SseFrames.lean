import AgentConnector.AdapterCore
import AgentConnector.Framing

/-!
# Frames of server-sent events

How the HTTP/SSE driver cuts its buffer into frames and reads them. `find_sse_boundary` looks for
LF LF in the whole buffer before it looks for CR LF CR LF, so it finds the first blank line only if
no CR LF CR LF stands before an LF LF. With that, the buffer is cut at its first blank line, which
does not depend on what arrives later.
-/

namespace AgentConnector

open List Option

namespace HttpSse

abbrev Bytes := List UInt8

def lfLf : Bytes := [10, 10]

def crLfCrLf : Bytes := [13, 10, 13, 10]

/-- `windows(n).position(|w| w == sep)`. -/
def position (sep : Bytes) : Bytes → Option ℕ
  | [] => none
  | b :: rest => if sep.isPrefixOf (b :: rest) then some 0 else (position sep rest).map (· + 1)

def findSseBoundary (buffer : Bytes) : Option ℕ :=
  (position lfLf buffer).orElse (fun _ => position crLfCrLf buffer)

def drainBoundary (buffer : Bytes) : Bytes :=
  if lfLf.isPrefixOf buffer then buffer.drop 2
  else if crLfCrLf.isPrefixOf buffer then buffer.drop 4
  else buffer

/-- `std::str::from_utf8`, on at most `n` characters. -/
def decodeUtf8 : ℕ → Bytes → Option (List Char)
  | _, [] => some []
  | 0, _ :: _ => none
  | n + 1, b :: bs => do
    let c ← ByteArray.utf8DecodeChar? ⟨(b :: bs).toArray⟩ 0
    let rest ← decodeUtf8 n ((b :: bs).drop c.utf8Size)
    return c :: rest

def fromUtf8 (bytes : Bytes) : Option (List Char) := decodeUtf8 bytes.length bytes

def stripCr (line : List Char) : List Char :=
  if line.getLast? = some '\r' then line.dropLast else line

/-- `str::lines`, after the characters `line` of the current line. -/
def linesFrom (line : List Char) : List Char → List (List Char)
  | [] => if line.isEmpty then [] else [line]
  | c :: cs => if c = '\n' then stripCr line :: linesFrom [] cs else linesFrom (line ++ [c]) cs

def lines (text : List Char) : List (List Char) := linesFrom [] text

/-- `strip_prefix`. -/
def stripped (p line : List Char) : Option (List Char) :=
  if p.isPrefixOf line then some (line.drop p.length) else none

def trimStart (s : List Char) : List Char := s.dropWhile isWhitespace

def trim (s : List Char) : List Char := (trimStart (trimStart s).reverse).reverse

/-- The loop of `parse_sse_frame` over the lines, with the identifier and the data so far. -/
def parseLines (id : Option (List Char)) (data : Bytes) :
    List (List Char) → Option (List Char) × Bytes
  | [] => (id, data)
  | line :: rest => match stripped "id:".toList line with
    | some value => parseLines (some (trim value)) data rest
    | none => match stripped "data:".toList line with
      | some value =>
        let started := if data.isEmpty then data else data ++ [10]
        parseLines id (started ++ (trimStart value).flatMap String.utf8EncodeChar) rest
      | none => parseLines id data rest

def parseSseFrame (frame : Bytes) : Option (Option (List Char) × Bytes) :=
  match fromUtf8 frame with
  | none => none
  | some text =>
    let parsed := parseLines none [] (lines text)
    if parsed.2.isEmpty then none else some parsed

/-- `value.parse::<u64>()`. -/
def parseU64 (value : List Char) : Option ℕ :=
  let digits := match value with
    | '+' :: digits => digits
    | digits => digits
  if digits.isEmpty ∨ ¬ digits.all Char.isDigit then none
  else
    let n := digits.foldl (fun n c => 10 * n + (c.toNat - 48)) 0
    if n < 2 ^ 64 then some n else none

def cutBlank : Bytes → Option (Bytes × Bytes)
  | [] => none
  | b :: rest =>
    if lfLf.isPrefixOf (b :: rest) ∨ crLfCrLf.isPrefixOf (b :: rest) then
      some ([], drainBoundary (b :: rest))
    else (cutBlank rest).map (fun r => (b :: r.1, r.2))

variable {b : Bytes}

theorem cutBlank_shorter (h : cutBlank b = some (f, rest)) :
    rest.length < b.length := by
  induction b generalizing f with
  | nil => cases h
  | cons x b ih =>
    rw [cutBlank] at h
    split at h
    · rename_i hsep
      cases h
      unfold drainBoundary
      split
      · simp
      · split
        · simp
        · rename_i hlf hcr
          exact absurd hsep (by simp [hlf, hcr])
    · obtain ⟨r, hr, heq⟩ := map_eq_some_iff.mp h
      cases heq
      have := ih hr
      rw [length_cons]
      omega

theorem isPrefixOf_append {sep : Bytes} (more : Bytes) (h : sep.isPrefixOf b = true) :
    sep.isPrefixOf (b ++ more) = true := by
  rw [List.isPrefixOf_iff_prefix] at h ⊢
  exact h.trans (prefix_append b more)

theorem drainBoundary_append (more : Bytes)
    (h : lfLf.isPrefixOf b = true ∨ crLfCrLf.isPrefixOf b = true) :
    drainBoundary (b ++ more) = drainBoundary b ++ more := by
  by_cases hlf : lfLf.isPrefixOf b = true
  · have hlen : 2 ≤ b.length := (List.isPrefixOf_iff_prefix.mp hlf).length_le
    rw [drainBoundary, if_pos (isPrefixOf_append more hlf), drainBoundary, if_pos hlf,
      drop_append_of_le_length hlen]
  · have hcr := h.resolve_left hlf
    have hlen : 4 ≤ b.length := (List.isPrefixOf_iff_prefix.mp hcr).length_le
    have hlf' : ¬ lfLf.isPrefixOf (b ++ more) = true := by
      obtain ⟨rest, rfl⟩ := List.isPrefixOf_iff_prefix.mp hcr
      simp [lfLf, crLfCrLf, List.isPrefixOf]
    rw [drainBoundary, if_neg hlf', if_pos (isPrefixOf_append more hcr), drainBoundary, if_neg hlf,
      if_pos hcr, drop_append_of_le_length hlen]

theorem not_blank_append (more : Bytes) (hcut : cutBlank b ≠ none)
    (h : ¬ (lfLf.isPrefixOf (x :: b) = true ∨ crLfCrLf.isPrefixOf (x :: b) = true)) :
    ¬ (lfLf.isPrefixOf (x :: b ++ more) = true ∨ crLfCrLf.isPrefixOf (x :: b ++ more) = true) := by
  match b with
  | [] => exact absurd rfl hcut
  | [y] => exact absurd (by simp [cutBlank, lfLf, crLfCrLf, List.isPrefixOf]) hcut
  | [y, z] =>
    by_cases hyz : y = 10 ∧ z = 10
    · obtain ⟨rfl, rfl⟩ := hyz
      simpa [lfLf, crLfCrLf, List.isPrefixOf] using h
    · have hyz' : 10 = y → ¬ 10 = z := fun hy hz => hyz ⟨hy.symm, hz.symm⟩
      exact absurd (by simpa [cutBlank, lfLf, crLfCrLf, List.isPrefixOf] using hyz') hcut
  | y :: z :: w :: b' =>
    simpa [lfLf, crLfCrLf, List.isPrefixOf] using h

theorem cutBlank_stable (more : Bytes) (h : cutBlank b = some (f, rest)) :
    cutBlank (b ++ more) = some (f, rest ++ more) := by
  induction b generalizing f with
  | nil => cases h
  | cons x b ih =>
    rw [cutBlank] at h
    rw [cons_append, cutBlank]
    by_cases hsep : lfLf.isPrefixOf (x :: b) = true ∨ crLfCrLf.isPrefixOf (x :: b) = true
    · rw [if_pos hsep] at h
      rw [← cons_append, if_pos (hsep.imp (isPrefixOf_append more) (isPrefixOf_append more)),
        drainBoundary_append more hsep]
      cases h
      rfl
    · rw [if_neg hsep] at h
      obtain ⟨r, hr, heq⟩ := map_eq_some_iff.mp h
      cases heq
      have hcut : cutBlank b ≠ none := by
        rw [hr]
        exact some_ne_none _
      rw [← cons_append, if_neg (not_blank_append more hcut hsep), ih hr]
      rfl

theorem isPrefixOf_of_position (h : position sep b = some n) :
    sep.isPrefixOf (b.drop n) = true := by
  induction b generalizing n with
  | nil => cases h
  | cons x b ih =>
    rw [position] at h
    split at h
    · rename_i hsep
      cases h
      exact hsep
    · obtain ⟨m, hm, rfl⟩ := map_eq_some_iff.mp h
      exact ih hm

theorem exists_delimiter (h : findSseBoundary b = some n) :
    ∃ d, (d = lfLf ∨ d = crLfCrLf) ∧ b.drop n = d ++ drainBoundary (b.drop n) := by
  have hsep : lfLf.isPrefixOf (b.drop n) = true ∨ crLfCrLf.isPrefixOf (b.drop n) = true := by
    unfold findSseBoundary at h
    cases hlf : position lfLf b with
    | some m =>
      rw [hlf] at h
      cases h
      exact .inl (isPrefixOf_of_position hlf)
    | none =>
      rw [hlf] at h
      exact .inr (isPrefixOf_of_position h)
  unfold drainBoundary
  by_cases hlf : lfLf.isPrefixOf (b.drop n) = true
  · obtain ⟨rest, hrest⟩ := List.isPrefixOf_iff_prefix.mp hlf
    rw [if_pos hlf, ← hrest]
    exact ⟨lfLf, .inl rfl, rfl⟩
  · have hcr := hsep.resolve_left hlf
    obtain ⟨rest, hrest⟩ := List.isPrefixOf_iff_prefix.mp hcr
    rw [if_neg hlf, if_pos hcr, ← hrest]
    exact ⟨crLfCrLf, .inr rfl, rfl⟩

theorem two_le_delimiter (h : d = lfLf ∨ d = crLfCrLf) : 2 ≤ d.length := by
  obtain rfl | rfl := h <;> decide

theorem drainBoundary_length (h : findSseBoundary b = some n) :
    (drainBoundary (b.drop n)).length + 2 ≤ b.length := by
  obtain ⟨d, hd, hdrop⟩ := exists_delimiter h
  have hlen := congrArg length hdrop
  rw [length_drop, length_append] at hlen
  have := two_le_delimiter hd
  omega

theorem drainBoundary_shorter (h : findSseBoundary b = some n) :
    (drainBoundary (b.drop n)).length < b.length :=
  Nat.lt_of_succ_lt (drainBoundary_length h)

/-- The loop over the frames of a buffer, where nothing ends it early: the frames, each with what
has been drained after it, and what remains. -/
def extractFrames (b : Bytes) : List (Bytes × Bytes) × Bytes :=
  match _h : findSseBoundary b with
  | none => ([], b)
  | some n =>
    let rest := drainBoundary (b.drop n)
    ((b.take n, (b.drop n).take ((b.drop n).length - rest.length)) :: (extractFrames rest).1,
      (extractFrames rest).2)
termination_by b.length
decreasing_by all_goals exact drainBoundary_shorter _h

theorem extractFrames_of_none (h : findSseBoundary b = none) : extractFrames b = ([], b) := by
  rw [extractFrames]
  split
  · rfl
  · rename_i heq
    rw [h] at heq
    cases heq

theorem extractFrames_of_some (h : findSseBoundary b = some n)
    (hdrop : b.drop n = d ++ drainBoundary (b.drop n)) :
    extractFrames b = ((b.take n, d) :: (extractFrames (drainBoundary (b.drop n))).1,
      (extractFrames (drainBoundary (b.drop n))).2) := by
  have htake : (b.drop n).take ((b.drop n).length - (drainBoundary (b.drop n)).length) = d := by
    generalize drainBoundary (b.drop n) = rest at hdrop ⊢
    rw [hdrop, length_append, Nat.add_sub_cancel, take_left]
  rw [extractFrames]
  split
  · rename_i heq
    rw [h] at heq
    cases heq
  · rename_i heq
    rw [h] at heq
    cases heq
    dsimp only
    rw [htake]

theorem not_infix_of_position {sep : Bytes} (hsep : sep ≠ []) (h : position sep b = none) :
    ¬ sep <:+: b := by
  induction b with
  | nil => rwa [infix_nil]
  | cons x b ih =>
    rw [position] at h
    split at h
    · cases h
    · rename_i hpre
      rw [infix_cons_iff, ← List.isPrefixOf_iff_prefix]
      exact not_or.mpr ⟨hpre, ih (map_eq_none_iff.mp h)⟩

theorem extractFrames_round (hn : findSseBoundary b = some n) :
    ∃ d, (d = lfLf ∨ d = crLfCrLf) ∧ b = b.take n ++ d ++ drainBoundary (b.drop n) ∧
      extractFrames b = ((b.take n, d) :: (extractFrames (drainBoundary (b.drop n))).1,
        (extractFrames (drainBoundary (b.drop n))).2) := by
  obtain ⟨d, hd, hdrop⟩ := exists_delimiter hn
  refine ⟨d, hd, ?_, extractFrames_of_some hn hdrop⟩
  rw [append_assoc, ← hdrop, take_append_drop]

/-- Every round of the loop takes a frame and one delimiter off the buffer, so there are at most
half as many rounds as bytes. Nothing is lost, and no delimiter remains. -/
theorem extractFrames_exact (b : Bytes) :
    (∀ n, findSseBoundary b = some n → ∃ d, (d = lfLf ∨ d = crLfCrLf) ∧
      b = b.take n ++ d ++ drainBoundary (b.drop n) ∧
      (extractFrames b).1 = (b.take n, d) :: (extractFrames (drainBoundary (b.drop n))).1) ∧
    (extractFrames b).1.length ≤ b.length / 2 ∧
    (∀ p ∈ (extractFrames b).1, p.2 = lfLf ∨ p.2 = crLfCrLf) ∧
    (extractFrames b).1.flatMap (fun p => p.1 ++ p.2) ++ (extractFrames b).2 = b ∧
    ¬ lfLf <:+: (extractFrames b).2 ∧ ¬ crLfCrLf <:+: (extractFrames b).2 := by
  refine ⟨fun n hn => ?_, ?_⟩
  · obtain ⟨d, hd, hb, heq⟩ := extractFrames_round hn
    exact ⟨d, hd, hb, congrArg Prod.fst heq⟩
  · cases hn : findSseBoundary b with
    | none =>
      rw [extractFrames_of_none hn]
      unfold findSseBoundary at hn
      cases hlf : position lfLf b with
      | some m =>
        rw [hlf] at hn
        cases hn
      | none =>
        rw [hlf] at hn
        exact ⟨Nat.zero_le _, fun _ h => (not_mem_nil h).elim, rfl,
          not_infix_of_position (by decide) hlf, not_infix_of_position (by decide) hn⟩
    | some n =>
      obtain ⟨d, hd, hb, heq⟩ := extractFrames_round hn
      have hlen := drainBoundary_length hn
      obtain ⟨-, hcount, hdelims, hjoin, hrest⟩ :=
        extractFrames_exact (drainBoundary (b.drop n))
      rw [heq]
      refine ⟨?_, ?_, ?_, hrest⟩
      · rw [length_cons]
        omega
      · intro p hp
        rcases mem_cons.mp hp with rfl | hp
        · exact hd
        · exact hdelims p hp
      · rw [flatMap_cons, append_assoc, hjoin]
        exact hb.symm
termination_by b.length
decreasing_by exact drainBoundary_shorter hn

def blankLines : Framing.Cutter UInt8 := ⟨cutBlank, cutBlank_shorter, cutBlank_stable⟩

def Unmixed (b : Bytes) : Prop :=
  ∀ i < b.length, crLfCrLf.isPrefixOf (b.drop i) = true → position lfLf (b.drop i) = none

instance (b : Bytes) : Decidable (Unmixed b) :=
  inferInstanceAs (Decidable (∀ i < b.length, _ → _))

theorem Unmixed.drop (h : Unmixed b) (n : ℕ) : Unmixed (b.drop n) := by
  intro i hlt hi
  rw [length_drop] at hlt
  rw [drop_drop] at hi ⊢
  exact h _ (by omega) hi

theorem cutBlank_eq (h : Unmixed b) : cutBlank b =
    (findSseBoundary b).map (fun n => (b.take n, drainBoundary (b.drop n))) := by
  induction b with
  | nil => rfl
  | cons x b ih =>
    rw [cutBlank, findSseBoundary, position, position]
    by_cases hlf : lfLf.isPrefixOf (x :: b) = true
    · rw [if_pos (Or.inl hlf), if_pos hlf]
      rfl
    · rw [if_neg hlf]
      by_cases hcr : crLfCrLf.isPrefixOf (x :: b) = true
      · have hnone := h 0 (by simp) hcr
        rw [drop_zero, position, if_neg hlf] at hnone
        rw [if_pos (Or.inr hcr), if_pos hcr, hnone]
        rfl
      · rw [if_neg (not_or.mpr ⟨hlf, hcr⟩), if_neg hcr, ih (h.drop 1), findSseBoundary]
        cases position lfLf b with
        | some n => rfl
        | none =>
          cases position crLfCrLf b with
          | some n => rfl
          | none => rfl

end HttpSse

end AgentConnector
