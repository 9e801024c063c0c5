import AgentConnector.AgentRegistry
import AgentConnector.JsonAccess
import AgentConnector.StepRuns

/-!
# The ACP client

The driver writes JSON-RPC requests to the standard input of a child process and reads its standard
output line by line. A request draws a number, registers the sender of a one-shot channel under it,
writes its line and waits on the channel. The reader passes the `result` of a line to the sender
that is registered under the `id` of the line. The requests of `call` and of the polling loop share
the counter and the map of senders.
-/

namespace AgentConnector.AcpClient

open Steps List Option
open Concurrent.Pool (getElem?_concat_cases)

inductive AcpClientError where
  | rpc (message : String)
  | processExited

def AcpClientError.display : AcpClientError → String
  | .rpc m => "JSON-RPC request failed: " ++ m
  | .processExited => "ACP process exited unexpectedly"

def resultOf (v : Json) : Json := (v.get "result").getD .null

/-- What the reader makes of a line: the request that it answers and the value for it. A line that
is not JSON is `none`. -/
def answer (line : Option Json) : Option (ℕ × Json) :=
  line.bind fun v => ((v.get "id").bind (Json.asUInt (2 ^ 64))).map (·, resultOf v)

/-! ## What the methods report -/

section

variable (called : Except AcpClientError Json)

def reported (context : String) : Except CoreError Unit :=
  match called with
  | .ok _ => .ok ()
  | .error e => .error (.driver (context ++ ": " ++ e.display))

def health : Except CoreError Unit := reported called "ACP health check failed"

def cancel : Except CoreError Unit := reported called "session/cancel failed"

def provideInput : Except CoreError Unit := reported called "session/input failed"

/-- The first event of `invoke`, from the outcome of `session/prompt`. -/
def promptEvent : DriverEvent :=
  match called with
  | .ok _ => .accepted
  | .error e => .failed ⟨"acp_prompt_failed", e.display, true⟩

end

/-! ## Requests, reader and child -/

inductive Phase where
  | drawn
  | registered
  | waiting
  | ended
  deriving DecidableEq

structure Request where
  id : ℕ
  polling : Bool
  phase : Phase := .drawn
  /-- The value that was sent on the channel. -/
  slot : Option Json := none
  returned : Option (Except AcpClientError Json) := none
  -- how many lines were read and how many were on their way when the sender was registered, and
  -- whether the reader had ended by then
  since : ℕ := 0
  inFlight : ℕ := 0
  late : Bool := false

/-- A polling loop ends without a word where `call` returns an error. -/
def Request.fail (r : Request) (e : AcpClientError) : Request :=
  { r with phase := .ended, returned := if r.polling then none else some (.error e) }

structure State where
  nextRequestId : ℕ := 1
  requests : List Request := []
  /-- The map of senders, with the position of the request that waits for each. -/
  pending : ℕ → Option ℕ := fun _ => none
  /-- The lines that the child has written and the reader has not read. -/
  pipe : List (Option Json) := []
  lines : List (Option Json) := []
  reading : Bool := true

inductive Input where
  | draw (polling : Bool)
  | register (k : ℕ)
  | written (k : ℕ)
  | writeFailed (k : ℕ) (message : String)
  | receive (k : ℕ)
  | senderGone (k : ℕ)
  /-- The future of a call is dropped, or the five seconds of a poll are over. -/
  | leave (k : ℕ)
  | print (line : Option Json)
  | take
  /-- The output ends, or reading it fails. -/
  | stop

def State.hear (s : State) (line : Option Json) : State :=
  match answer line with
  | none => { s with lines := s.lines ++ [line] }
  | some (id, result) =>
    match s.pending id with
    | none => { s with lines := s.lines ++ [line] }
    | some k =>
      { s with
        lines := s.lines ++ [line]
        pending := Function.update s.pending id none
        requests := s.requests.modify k fun r => { r with slot := some result } }

def State.draw (s : State) (polling : Bool) : State :=
  { s with
    nextRequestId := (s.nextRequestId + 1) % 2 ^ 64
    requests := s.requests ++ [{ id := s.nextRequestId, polling }] }

def State.register (s : State) (k : ℕ) (r : Request) : State :=
  { s with
    pending := Function.update s.pending r.id (some k)
    requests := s.requests.set k { r with
      phase := .registered, since := s.lines.length, inFlight := s.pipe.length,
      late := !s.reading } }

def State.request (s : State) (k : ℕ) (f : Request → Option Request) : Option State :=
  (s.requests[k]?.bind f).map fun r => { s with requests := s.requests.set k r }

def step (s : State) : Input → Option State
  | .draw polling => some (s.draw polling)
  | .register k => s.requests[k]?.bind fun r =>
      if r.phase = .drawn then some (s.register k r) else none
  | .written k => s.request k fun r =>
      if r.phase = .registered then some { r with phase := .waiting } else none
  -- the sender stays in the map
  | .writeFailed k message => s.request k fun r =>
      if r.phase = .registered then some (r.fail (.rpc message)) else none
  | .receive k => s.request k fun r =>
      if r.phase = .waiting then
        r.slot.map fun w => { r with phase := .ended, returned := some (.ok w) }
      else none
  | .senderGone k => s.request k fun r =>
      if r.phase = .waiting ∧ r.slot.isNone ∧ s.pending r.id ≠ some k then
        some (r.fail .processExited)
      else none
  | .leave k => s.request k fun r =>
      if r.phase = .registered ∨ r.phase = .waiting then some { r with phase := .ended } else none
  | .print line => some { s with pipe := s.pipe ++ [line] }
  | .take =>
    match s.pipe with
    | [] => none
    | line :: rest => if s.reading then some (State.hear { s with pipe := rest } line) else none
  -- the tasks are told, the senders in the map are not
  | .stop => if s.reading then some { s with reading := false } else none

variable {s s' : State} {i : Input} {k : ℕ} {r r' : Request} {line : Option Json}

/-- A request goes on by itself: it keeps its number and its channel, and returns a value only from
the channel. -/
structure Request.Moves (i : Input) (k : ℕ) (r r' : Request) : Prop where
  id : r'.id = r.id
  slot : r'.slot = r.slot
  since : r'.since = r.since
  late : r'.late = r.late
  before : r.phase ≠ .drawn
  after : r'.phase ≠ .drawn
  wait : r'.phase = .waiting → i = .written k
  value : ∀ w, r'.returned = some (.ok w) → r.returned = some (.ok w) ∨ r.slot = some w

theorem moves_fail (h : r.phase ≠ .drawn) : r.Moves i k (r.fail e) where
  id := rfl
  slot := rfl
  since := rfl
  late := rfl
  before := h
  after h := by cases h
  wait h := by cases h
  value w h := by
    unfold Request.fail at h
    split at h <;> cases h

inductive Move (s : State) : Input → State → Prop where
  | draw (polling : Bool) : Move s (.draw polling) (s.draw polling)
  | register {k : ℕ} {r : Request} (hk : s.requests[k]? = some r) (hr : r.phase = .drawn) :
      Move s (.register k) (s.register k r)
  | request {i : Input} {k : ℕ} {r r' : Request} (hk : s.requests[k]? = some r)
      (hr : r.Moves i k r') : Move s i { s with requests := s.requests.set k r' }
  | print (line : Option Json) : Move s (.print line) { s with pipe := s.pipe ++ [line] }
  | take (line : Option Json) (rest : List (Option Json)) (hreading : s.reading = true) :
      Move s .take (State.hear { s with pipe := rest } line)
  | stop : Move s .stop { s with reading := false }

theorem move_of_request {f : Request → Option Request} (h : s.request k f = some s')
    (hf : ∀ r r', f r = some r' → r.Moves i k r') : Move s i s' := by
  obtain ⟨r', hr', rfl⟩ := map_eq_some_iff.mp h
  obtain ⟨r, hk, hr⟩ := bind_eq_some_iff.mp hr'
  exact .request hk (hf r r' hr)

theorem move_of_step (h : step s i = some s') : Move s i s' := by
  cases i with
  | draw polling =>
    cases h
    exact .draw polling
  | register k =>
    obtain ⟨r, hk, hr⟩ := bind_eq_some_iff.mp h
    obtain ⟨hphase, hr⟩ := ite_none_right_eq_some.mp hr
    cases hr
    exact .register hk hphase
  | written k =>
    refine move_of_request h fun r r' hr => ?_
    obtain ⟨hphase, hr⟩ := ite_none_right_eq_some.mp hr
    cases hr
    exact ⟨rfl, rfl, rfl, rfl, by simp [hphase], by simp, fun _ => rfl, fun _ => .inl⟩
  | writeFailed k message =>
    refine move_of_request h fun r r' hr => ?_
    obtain ⟨hphase, hr⟩ := ite_none_right_eq_some.mp hr
    cases hr
    exact moves_fail (by simp [hphase])
  | receive k =>
    refine move_of_request h fun r r' hr => ?_
    obtain ⟨hphase, hr⟩ := ite_none_right_eq_some.mp hr
    obtain ⟨w, hw, rfl⟩ := map_eq_some_iff.mp hr
    refine ⟨rfl, rfl, rfl, rfl, by simp [hphase], by simp, by simp, fun w' h' => .inr ?_⟩
    cases h'
    exact hw
  | senderGone k =>
    refine move_of_request h fun r r' hr => ?_
    obtain ⟨⟨hphase, -⟩, hr⟩ := ite_none_right_eq_some.mp hr
    cases hr
    exact moves_fail (by simp [hphase])
  | leave k =>
    refine move_of_request h fun r r' hr => ?_
    obtain ⟨hphase, hr⟩ := ite_none_right_eq_some.mp hr
    cases hr
    refine ⟨rfl, rfl, rfl, rfl, fun hdrawn => ?_, by simp, by simp, fun _ => .inl⟩
    simp [hdrawn] at hphase
  | print line =>
    cases h
    exact .print line
  | take =>
    simp only [step] at h
    split at h
    · cases h
    · obtain ⟨hreading, h⟩ := ite_none_right_eq_some.mp h
      cases h
      exact .take _ _ hreading
  | stop =>
    obtain ⟨-, h⟩ := ite_none_right_eq_some.mp h
    cases h
    exact .stop

/-! ## Error responses -/

/-- What `call` returns if `v` is the line that answers it. -/
def answered (v : Json) : Except AcpClientError Json := .ok (resultOf v)

theorem call_answered (hk : s.requests[k]? = some r) (hwaits : r.phase = .waiting)
    (hsender : s.pending r.id = some k) (hreading : s.reading = true)
    (hpipe : s.pipe = some v :: rest) (hv : answer (some v) = some (r.id, resultOf v)) :
    ∃ s' r', run step s [.take, .receive k] = some s' ∧ s'.requests[k]? = some r' ∧
      r'.returned = some (answered v) := by
  obtain ⟨hlt, rfl⟩ := List.getElem?_eq_some_iff.mp hk
  simp [run, step, State.hear, State.request, hpipe, hreading, hv, hsender, hwaits, hlt, answered]

/-- A response is reported as what it is: a value only if it has a result, and an error response as
a failure of each method. -/
structure Surfaces (v : Json) : Prop where
  result : ∀ w, answered v = .ok w → v.get "result" = some w
  failure : (v.get "error").isSome → (∃ e, answered v = .error e) ∧
    (∃ e, health (answered v) = .error e) ∧ (∃ e, cancel (answered v) = .error e) ∧
    (∃ e, provideInput (answered v) = .error e) ∧ ∃ e, promptEvent (answered v) = .failed e

theorem surfaces_iff (v : Json) :
    Surfaces v ↔ (v.get "result").isSome ∧ v.get "error" = none := by
  constructor
  · intro h
    refine ⟨isSome_iff_exists.mpr ⟨_, h.result _ rfl⟩, ?_⟩
    by_contra herror
    obtain ⟨⟨e, he⟩, -⟩ := h.failure (isSome_iff_ne_none.mpr herror)
    cases he
  · rintro ⟨hresult, herror⟩
    obtain ⟨w, hw⟩ := isSome_iff_exists.mp hresult
    refine ⟨fun w' h => ?_, fun h => ?_⟩
    · cases h
      rw [resultOf, hw, getD_some]
    · rw [herror] at h
      cases h

theorem error_response_accepted :
    ∃ v, v.get "id" = some (.int 1) ∧ (v.get "error").isSome ∧ answered v = .ok .null ∧
      cancel (answered v) = .ok () ∧ promptEvent (answered v) = .accepted ∧ ¬ Surfaces v := by
  refine ⟨.object [("id", .int 1), ("error", .object [("code", .int (-32603))])], rfl, rfl, rfl,
    rfl, rfl, fun h => ?_⟩
  cases h.result _ rfl

/-! ## Correlation -/

/-- The line at a position answers the request: it is the first with the number of the request among
the lines that were read after the registration. -/
structure Answers (lines : List (Option Json)) (r : Request) (pos : ℕ) (w : Json) : Prop where
  since : r.since ≤ pos
  value : lines[pos]?.bind answer = some (r.id, w)
  first : ∀ j w', r.since ≤ j → j < pos → lines[j]?.bind answer ≠ some (r.id, w')

/-- No line that was read after the registration has the number of the request. -/
structure Unanswered (lines : List (Option Json)) (r : Request) : Prop where
  since : r.since ≤ lines.length
  none : ∀ j w, r.since ≤ j → lines[j]?.bind answer ≠ some (r.id, w)

section

variable {lines : List (Option Json)} {pos : ℕ} {w : Json}

theorem answer_append (h : (lines ++ [line])[pos]?.bind answer = some p) :
    lines[pos]?.bind answer = some p ∨ pos = lines.length ∧ answer line = some p := by
  obtain ⟨l, hl, hp⟩ := bind_eq_some_iff.mp h
  obtain hold | ⟨hpos, rfl⟩ := getElem?_concat_cases hl
  · exact .inl (bind_eq_some_iff.mpr ⟨l, hold, hp⟩)
  · exact .inr ⟨hpos, hp⟩

theorem Answers.append (h : Answers lines r pos w) (line : Option Json) :
    Answers (lines ++ [line]) r pos w := by
  obtain ⟨_, hline, _⟩ := bind_eq_some_iff.mp h.value
  have hpos := (List.getElem?_eq_some_iff.mp hline).1
  refine ⟨h.since, ?_, fun j w' hj hlt hcarries => ?_⟩
  · rw [List.getElem?_append_left hpos]
    exact h.value
  · obtain hold | ⟨rfl, -⟩ := answer_append hcarries
    · exact h.first j w' hj hlt hold
    · omega

theorem Unanswered.append (h : Unanswered lines r) (hline : ∀ w, answer line ≠ some (r.id, w)) :
    Unanswered (lines ++ [line]) r := by
  refine ⟨?_, fun j w hj hcarries => ?_⟩
  · rw [length_append]
    exact Nat.le_add_right_of_le h.since
  · obtain hold | ⟨-, hnew⟩ := answer_append hcarries
    · exact h.none j w hj hold
    · exact hline w hnew

theorem Unanswered.answers (h : Unanswered lines r) (hline : answer line = some (r.id, w)) :
    Answers (lines ++ [line]) r lines.length w := by
  refine ⟨h.since, ?_, fun j w' hj hlt hcarries => ?_⟩
  · rw [getElem?_concat_length]
    exact hline
  · obtain hold | ⟨rfl, -⟩ := answer_append hcarries
    · exact h.none j w' hj hold
    · omega

end

/-- A request returns what is in its channel, and that is the value of the line that answers it. -/
structure Request.Correlated (lines : List (Option Json)) (r : Request) : Prop where
  slot : ∀ w, r.slot = some w → r.phase ≠ .drawn ∧ ∃ pos, Answers lines r pos w
  returned : ∀ w, r.returned = some (.ok w) → r.slot = some w

structure State.Correlated (s : State) : Prop where
  next : s.nextRequestId = (s.requests.length + 1) % 2 ^ 64
  ids : ∀ (k : ℕ) r, s.requests[k]? = some r → r.id = (k + 1) % 2 ^ 64
  requests : ∀ (k : ℕ) (r : Request), s.requests[k]? = some r → r.Correlated s.lines
  pending : ∀ id k, s.pending id = some k → ∃ r, s.requests[k]? = some r ∧ r.id = id ∧
    r.phase ≠ .drawn ∧ r.slot = none ∧ Unanswered s.lines r

namespace State.Correlated

/-- A line that no sender is registered for. -/
theorem skip (h : s.Correlated)
    (hline : ∀ id k, s.pending id = some k → ∀ w, answer line ≠ some (id, w)) :
    State.Correlated { s with lines := s.lines ++ [line] } where
  next := h.next
  ids := h.ids
  requests k r hk := by
    refine ⟨fun w hw => ?_, (h.requests k r hk).returned⟩
    obtain ⟨hphase, pos, hpos⟩ := (h.requests k r hk).slot w hw
    exact ⟨hphase, pos, hpos.append line⟩
  pending id k hid := by
    obtain ⟨r, hk, rfl, hphase, hslot, hr⟩ := h.pending id k hid
    exact ⟨r, hk, rfl, hphase, hslot, hr.append (hline _ k hid)⟩

theorem hear (h : s.Correlated) (line : Option Json) : (s.hear line).Correlated := by
  unfold State.hear
  split
  · rename_i hnone
    exact h.skip fun _ _ _ w hw => by rw [hnone] at hw; cases hw
  rename_i id result hanswer
  split
  · rename_i hnone
    refine h.skip fun id' k hid w hw => ?_
    cases hanswer.symm.trans hw
    rw [hnone] at hid
    cases hid
  · rename_i k hk
    obtain ⟨r, hr, rfl, hphase, hslot, hun⟩ := h.pending id k hk
    refine ⟨?_, fun j r' hj => ?_, fun j r' hj => ?_, fun id' j hid => ?_⟩
    · rw [length_modify]
      exact h.next
    · obtain ⟨r₀, hr₀, rfl⟩ := exists_of_modify hj
      have hid := h.ids j r₀ hr₀
      split <;> exact hid
    · obtain ⟨r₀, hr₀, rfl⟩ := exists_of_modify hj
      have hold := h.requests j r₀ hr₀
      split
      · rename_i hjk
        subst hjk
        cases hr.symm.trans hr₀
        refine ⟨fun w hw => ?_, fun w hw => ?_⟩
        · cases hw
          obtain ⟨hsince, hvalue, hfirst⟩ := hun.answers hanswer
          exact ⟨hphase, _, hsince, hvalue, hfirst⟩
        · rw [hold.returned w hw] at hslot
          cases hslot
      · refine ⟨fun w hw => ?_, hold.returned⟩
        obtain ⟨hphase', pos, hpos⟩ := hold.slot w hw
        exact ⟨hphase', pos, hpos.append line⟩
    · simp only [Function.update_apply] at hid
      split at hid
      · cases hid
      rename_i hne
      obtain ⟨r₀, hr₀, rfl, hphase₀, hslot₀, hun₀⟩ := h.pending id' j hid
      have hjk : k ≠ j := by
        rintro rfl
        cases hr.symm.trans hr₀
        exact hne rfl
      refine ⟨r₀, ?_, rfl, hphase₀, hslot₀, hun₀.append fun w hw => ?_⟩
      · exact (getElem?_modify_ne _ _ hjk).trans hr₀
      · have hsame := Option.some.inj (hanswer.symm.trans hw)
        exact hne (congrArg Prod.fst hsame).symm

theorem draw (h : s.Correlated) (polling : Bool) : (s.draw polling).Correlated where
  next := by
    rw [State.draw, h.next, length_append, length_singleton, Nat.mod_add_mod]
  ids k r hk := by
    obtain hold | ⟨rfl, rfl⟩ := getElem?_concat_cases hk
    · exact h.ids k r hold
    · exact h.next
  requests k r hk := by
    obtain hold | ⟨rfl, rfl⟩ := getElem?_concat_cases hk
    · exact h.requests k r hold
    · exact ⟨fun _ hw => (by cases hw), fun _ hw => (by cases hw)⟩
  pending id k hid := by
    obtain ⟨r, hk, hr⟩ := h.pending id k hid
    exact ⟨r, (List.getElem?_append_left (List.getElem?_eq_some_iff.mp hk).1).trans hk, hr⟩

theorem slot_of_drawn (h : s.Correlated) (hk : s.requests[k]? = some r) (hr : r.phase = .drawn) :
    r.slot = none := by
  by_contra hsome
  obtain ⟨w, hw⟩ := ne_none_iff_exists'.mp hsome
  exact ((h.requests k r hk).slot w hw).1 hr

theorem register (h : s.Correlated) (hk : s.requests[k]? = some r) (hr : r.phase = .drawn) :
    (s.register k r).Correlated := by
  have hslot := h.slot_of_drawn hk hr
  have hlt := (List.getElem?_eq_some_iff.mp hk).1
  refine ⟨?_, fun j r' hj => ?_, fun j r' hj => ?_, fun id' j hid => ?_⟩
  · rw [State.register, List.length_set]
    exact h.next
  · obtain ⟨rfl, rfl⟩ | hold := getElem?_set_cases hj
    · exact h.ids j r hk
    · exact h.ids j r' hold
  · obtain ⟨rfl, rfl⟩ | hold := getElem?_set_cases hj
    · refine ⟨fun w hw => ?_, (h.requests j r hk).returned⟩
      rw [hslot] at hw
      cases hw
    · exact h.requests j r' hold
  · simp only [State.register, Function.update_apply] at hid
    split at hid
    · rename_i heq
      cases hid
      refine ⟨_, getElem?_set_self hlt, heq.symm, by simp, hslot, le_rfl, fun j w hj => ?_⟩
      change s.lines[j]?.bind answer ≠ _
      rw [getElem?_eq_none hj]
      simp
    · obtain ⟨r₀, hr₀, hid₀, hphase₀, hrest⟩ := h.pending id' j hid
      have hjk : k ≠ j := by
        rintro rfl
        cases hk.symm.trans hr₀
        exact hphase₀ hr
      exact ⟨r₀, (getElem?_set_ne hjk).trans hr₀, hid₀, hphase₀, hrest⟩

theorem request (h : s.Correlated) (hk : s.requests[k]? = some r) (hr : r.Moves i k r') :
    State.Correlated { s with requests := s.requests.set k r' } := by
  have hlt := (List.getElem?_eq_some_iff.mp hk).1
  refine ⟨?_, fun j r₁ hj => ?_, fun j r₁ hj => ?_, fun id j hid => ?_⟩
  · rw [List.length_set]
    exact h.next
  · obtain ⟨rfl, rfl⟩ | hold := getElem?_set_cases hj
    · exact hr.id.trans (h.ids j r hk)
    · exact h.ids j r₁ hold
  · obtain ⟨rfl, rfl⟩ | hold := getElem?_set_cases hj
    · have hfits := h.requests j r hk
      refine ⟨fun w hw => ?_, fun w hw => hr.slot.trans ?_⟩
      · obtain ⟨-, pos, hsince, hvalue, hfirst⟩ := hfits.slot w (hr.slot.symm.trans hw)
        rw [← hr.since] at hsince hfirst
        rw [← hr.id] at hvalue hfirst
        exact ⟨hr.after, pos, hsince, hvalue, hfirst⟩
      · exact (hr.value w hw).elim (hfits.returned w) id
    · exact h.requests j r₁ hold
  · obtain ⟨r₀, hr₀, rfl, hphase₀, hslot₀, hsince₀, hnone₀⟩ := h.pending id j hid
    by_cases hjk : k = j
    · subst hjk
      cases hk.symm.trans hr₀
      rw [← hr.since] at hsince₀ hnone₀
      rw [← hr.id] at hnone₀
      exact ⟨r', getElem?_set_self hlt, hr.id, hr.after, hr.slot.trans hslot₀, hsince₀, hnone₀⟩
    · exact ⟨r₀, (getElem?_set_ne hjk).trans hr₀, rfl, hphase₀, hslot₀, hsince₀, hnone₀⟩

theorem step (h : s.Correlated) (hstep : step s i = some s') : s'.Correlated := by
  cases move_of_step hstep with
  | draw polling => exact h.draw polling
  | register hk hr => exact h.register hk hr
  | request hk hr => exact h.request hk hr
  | print line | stop => exact ⟨h.next, h.ids, h.requests, h.pending⟩
  | take line rest =>
    exact hear (s := { s with pipe := rest }) ⟨h.next, h.ids, h.requests, h.pending⟩ line

end State.Correlated

theorem correlated_start : State.Correlated {} where
  next := rfl
  ids _ _ hk := by cases hk
  requests _ _ hk := by cases hk
  pending _ _ hid := by cases hid

theorem State.Correlated.eq_of_id (h : s.Correlated) (hfew : s.requests.length < 2 ^ 64)
    (hk : s.requests[k]? = some r) (hk' : s.requests[k']? = some r') (hid : r.id = r'.id) :
    k = k' := by
  have hlt := (List.getElem?_eq_some_iff.mp hk).1
  have hlt' := (List.getElem?_eq_some_iff.mp hk').1
  rw [h.ids k r hk, h.ids k' r' hk'] at hid
  omega

/-- No line with the number of the request was on its way when its sender was registered. -/
def Request.Expected (sent : List (Option Json)) (r : Request) : Prop :=
  ∀ j w, r.since ≤ j → j < r.since + r.inFlight → sent[j]?.bind answer ≠ some (r.id, w)

theorem responses_correlated (hrun : run step {} inputs = some s)
    (hfew : s.requests.length < 2 ^ 64) :
    (∀ (k k' : ℕ) r r', s.requests[k]? = some r → s.requests[k']? = some r' → r.id = r'.id →
      k = k') ∧
    (∀ r ∈ s.requests, ∀ w, r.returned = some (.ok w) → ∃ pos, Answers s.lines r pos w ∧
      (r.Expected (s.lines ++ s.pipe) → r.since + r.inFlight ≤ pos)) ∧
    ∀ (k k' : ℕ) r r' pos w w', s.requests[k]? = some r → s.requests[k']? = some r' →
      Answers s.lines r pos w → Answers s.lines r' pos w' → k = k' := by
  have h := run_keeps State.Correlated.step hrun correlated_start
  refine ⟨fun k k' r r' => h.eq_of_id hfew, fun r hr w hw => ?_, ?_⟩
  · obtain ⟨k, hk⟩ := mem_iff_getElem?.mp hr
    have hfits := h.requests k r hk
    obtain ⟨-, pos, hpos⟩ := hfits.slot w (hfits.returned w hw)
    refine ⟨pos, hpos, fun hexpected => ?_⟩
    by_contra hlt
    obtain ⟨_, hline, _⟩ := bind_eq_some_iff.mp hpos.value
    refine hexpected pos w hpos.since (by omega) ?_
    rw [List.getElem?_append_left (List.getElem?_eq_some_iff.mp hline).1]
    exact hpos.value
  · intro k k' r r' pos w w' hk hk' hpos hpos'
    have hsame := Option.some.inj (hpos.value.symm.trans hpos'.value)
    exact h.eq_of_id hfew hk hk' (congrArg Prod.fst hsame)

/-- A line with an `id` and a `result`. -/
def response (id : ℤ) (result : String) : Option Json :=
  some (.object [("id", .int id), ("result", .string result)])

/-- A call and a poll answered out of order, with a duplicate between the two answers. -/
def twoRequests : List Input :=
  [.draw false, .draw true, .register 1, .written 1, .register 0, .written 0,
    .print (response 2 "b"), .print (response 2 "c"), .print (response 1 "a"), .take, .take, .take,
    .receive 0, .receive 1]

theorem responses_correlated_two_requests :
    ∃ s r, run step {} twoRequests = some s ∧ s.requests[1]? = some r ∧
      r.returned = some (.ok (.string "b")) ∧ ∃ pos, Answers s.lines r pos (.string "b") ∧
        (r.Expected (s.lines ++ s.pipe) → r.since + r.inFlight ≤ pos) := by
  have hreached : ∃ s r, run step {} twoRequests = some s ∧ s.requests[1]? = some r ∧
      r.returned = some (.ok (.string "b")) ∧ s.requests.length = 2 :=
    ⟨_, _, rfl, rfl, rfl, rfl⟩
  obtain ⟨s, r, hrun, hr, hreturned, hlength⟩ := hreached
  have hfew : s.requests.length < 2 ^ 64 := by omega
  exact ⟨s, r, hrun, hr, hreturned,
    (responses_correlated hrun hfew).2.1 r (mem_of_getElem? hr) _ hreturned⟩

/-- A line that the child has written before the request is registered is taken for its answer. -/
theorem early_response_delivered :
    ∃ s r, run step {} [.print (response 1 "early"), .draw false, .register 0, .written 0, .take,
        .receive 0] = some s ∧ s.requests = [r] ∧ r.returned = some (.ok (.string "early")) ∧
      ∀ pos w, r.since + r.inFlight ≤ pos →
        (s.lines ++ s.pipe)[pos]?.bind answer ≠ some (r.id, w) := by
  refine ⟨_, _, rfl, rfl, rfl, fun pos w hpos h => ?_⟩
  obtain ⟨_, hline, _⟩ := bind_eq_some_iff.mp h
  have hlt : pos < 1 := (List.getElem?_eq_some_iff.mp hline).1
  exact absurd hpos (Nat.not_le.mpr hlt)

/-! ## The end of the reader -/

/-- No request waits for a sender that is still in the map. -/
def State.Settled (s : State) : Prop :=
  ∀ k (h : k < s.requests.length), s.requests[k].phase = .waiting →
    s.pending s.requests[k].id ≠ some k

instance decidableSettled (s : State) : Decidable s.Settled :=
  inferInstanceAs (Decidable (∀ k (_ : k < s.requests.length), _ → _))

theorem settled_iff : s.Settled ↔ ∀ (k : ℕ) r, s.requests[k]? = some r → r.phase = .waiting →
    s.pending r.id ≠ some k := by
  refine ⟨fun h k r hk => ?_, fun h k hk => h k _ (List.getElem?_eq_getElem hk)⟩
  obtain ⟨hlt, rfl⟩ := List.getElem?_eq_some_iff.mp hk
  exact h k hlt

/-- The reader ends when no request waits for it, and after that no write to the child succeeds. -/
def Orderly (s : State) : Input → Prop
  | .stop => s.Settled
  | .written _ => s.reading = true
  | _ => True

instance decidableOrderly (s : State) : (i : Input) → Decidable (Orderly s i)
  | .stop => inferInstanceAs (Decidable s.Settled)
  | .written _ => inferInstanceAs (Decidable (s.reading = true))
  | .draw _ | .register _ | .writeFailed _ _ | .receive _ | .senderGone _ | .leave _ | .print _
  | .take => isTrue trivial

structure State.Ended (s : State) : Prop where
  correlated : s.Correlated
  settled : s.reading = false → s.Settled
  late : ∀ r ∈ s.requests, r.late = true →
    s.reading = false ∧ r.slot = none ∧ ∀ w, r.returned ≠ some (.ok w)

namespace State.Ended

theorem register (h : s.Ended) (hk : s.requests[k]? = some r) (hr : r.phase = .drawn) :
    (s.register k r).Ended where
  correlated := h.correlated.register hk hr
  settled hreading := by
    refine settled_iff.mpr fun j r₁ hj hwaiting => ?_
    obtain ⟨rfl, rfl⟩ | hold := getElem?_set_cases hj
    · cases hwaiting
    · simp only [State.register, Function.update_apply]
      split
      · rintro ⟨⟩
        cases hk.symm.trans hold
        rw [hr] at hwaiting
        cases hwaiting
      · exact settled_iff.mp (h.settled hreading) j r₁ hold hwaiting
  late r₁ hr₁ hlate := by
    obtain hold | rfl := mem_or_eq_of_mem_set hr₁
    · exact h.late r₁ hold hlate
    · have hslot := h.correlated.slot_of_drawn hk hr
      refine ⟨(Bool.not_eq_true' _).mp hlate, hslot, fun w hw => ?_⟩
      rw [(h.correlated.requests k r hk).returned w hw] at hslot
      cases hslot

theorem request (h : s.Ended) (hk : s.requests[k]? = some r) (hr : r.Moves i k r')
    (hi : Orderly s i) : State.Ended { s with requests := s.requests.set k r' } where
  correlated := h.correlated.request hk hr
  settled hreading := by
    refine settled_iff.mpr fun j r₁ hj hwaiting => ?_
    obtain ⟨rfl, rfl⟩ | hold := getElem?_set_cases hj
    · cases hr.wait hwaiting
      cases hreading.symm.trans hi
    · exact settled_iff.mp (h.settled hreading) j r₁ hold hwaiting
  late r₁ hr₁ hlate := by
    obtain hold | rfl := mem_or_eq_of_mem_set hr₁
    · exact h.late r₁ hold hlate
    · obtain ⟨hreading, hslot, hreturned⟩ :=
        h.late r (mem_of_getElem? hk) (hr.late.symm.trans hlate)
      refine ⟨hreading, hr.slot.trans hslot, fun w hw => ?_⟩
      obtain hold | hnew := hr.value w hw
      · exact hreturned w hold
      · cases hslot.symm.trans hnew

theorem hear (h : s.Ended) (hreading : s.reading = true) (line : Option Json) :
    (s.hear line).Ended := by
  have hkept : (s.hear line).reading = true := by
    unfold State.hear
    split
    · exact hreading
    · split <;> exact hreading
  refine ⟨h.correlated.hear line, fun hended => ?_, fun r hr hlate => ?_⟩
  · cases hkept.symm.trans hended
  · have hold : ∃ r₀ ∈ s.requests, r₀.late = true := by
      unfold State.hear at hr
      split at hr
      · exact ⟨r, hr, hlate⟩
      · split at hr
        · exact ⟨r, hr, hlate⟩
        · obtain ⟨j, hj⟩ := mem_iff_getElem?.mp hr
          obtain ⟨r₀, hr₀, rfl⟩ := exists_of_modify hj
          refine ⟨r₀, mem_of_getElem? hr₀, ?_⟩
          split at hlate <;> exact hlate
    obtain ⟨r₀, hr₀, hlate₀⟩ := hold
    cases hreading.symm.trans (h.late r₀ hr₀ hlate₀).1

theorem step (h : s.Ended) (hi : Orderly s i) (hstep : step s i = some s') : s'.Ended := by
  have hcorrelated := h.correlated.step hstep
  cases move_of_step hstep with
  | draw polling =>
    refine ⟨hcorrelated, fun hreading => settled_iff.mpr fun j r hj hwaiting => ?_, ?_⟩
    · obtain hold | ⟨-, rfl⟩ := getElem?_concat_cases hj
      · exact settled_iff.mp (h.settled hreading) j r hold hwaiting
      · cases hwaiting
    · intro r hr hlate
      obtain hold | hnew := mem_append.mp hr
      · exact h.late r hold hlate
      · cases mem_singleton.mp hnew
        cases hlate
  | register hk hr => exact h.register hk hr
  | request hk hr => exact h.request hk hr hi
  | print line => exact ⟨hcorrelated, h.settled, h.late⟩
  | take line rest hreading =>
    exact hear (s := { s with pipe := rest })
      ⟨⟨h.correlated.next, h.correlated.ids, h.correlated.requests, h.correlated.pending⟩,
        h.settled, h.late⟩ hreading line
  | stop => exact ⟨hcorrelated, fun _ => hi, fun r hr hlate => ⟨rfl, (h.late r hr hlate).2⟩⟩

end State.Ended

/-- A call is answered before the output ends, and the write of the next one fails. -/
def brokenPipe : List Input :=
  [.draw false, .register 0, .written 0, .print (response 1 "a"), .take, .stop, .draw false,
    .register 1, .writeFailed 1 "broken pipe", .receive 0]

end AgentConnector.AcpClient
