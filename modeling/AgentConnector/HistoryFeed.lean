import AgentConnector.EventPages
import AgentConnector.SoloRun

/-!
# A complete source of history and a lossy channel

The environment of a stream of one task: a durable log that grows, a source that either fails or
returns all that is logged behind a position, and a channel that hands on any of the logged events
in any order and any number of times, reports lag whenever it likes, and is closed in the end. The
environment moves before each operation of the stream.
-/

namespace AgentConnector.ReliableTaskStream

open Concurrent List

abbrev historySig : Signature := ⟨TaskId × ℕ, fun _ => Except CoreError (List CoreEvent)⟩

def historySource : EventHistorySource historySig :=
  fun id afterSeq => ExceptT.mk (perform (.store (id, afterSeq)))

inductive Delivery where
  | event (e : CoreEvent)
  | lag (missed : ℕ)

def Delivery.recv : Delivery → Broadcast.Recv CoreEvent
  | .event e => .value e
  | .lag missed => .lagged missed

/-- The log and the channel. `late` records that the log has grown after the channel was closed. -/
structure Feed where
  log : List CoreEvent
  numbered : Numbered CoreEvent.seq 1 log
  queue : List Delivery
  queued : ∀ e, .event e ∈ queue → e ∈ log
  closed : Bool
  late : Bool

inductive FeedMove where
  | commit (id : TaskId) (at_ : DateTime) (kind : CoreEventKind)
  | send (i : ℕ)
  | lag (missed : ℕ)
  | close

namespace Feed

variable (f : Feed)

def commit (id : TaskId) (at_ : DateTime) (kind : CoreEventKind) : Feed where
  log := f.log ++ [⟨id, f.log.length + 1, at_, kind⟩]
  numbered := f.numbered.concat (Nat.add_comm ..)
  queue := f.queue
  queued := fun e he => mem_append_left _ (f.queued e he)
  closed := f.closed
  late := f.late || f.closed

def send (e : CoreEvent) (he : e ∈ f.log) : Feed where
  log := f.log
  numbered := f.numbered
  queue := f.queue ++ [.event e]
  queued := by
    intro e' he'
    rcases mem_append.mp he' with he' | he'
    · exact f.queued e' he'
    · cases mem_singleton.mp he'
      exact he
  closed := f.closed
  late := f.late

def lag (f : Feed) (missed : ℕ) : Feed where
  log := f.log
  numbered := f.numbered
  queue := f.queue ++ [.lag missed]
  queued := by
    intro e he
    rcases mem_append.mp he with he | he
    · exact f.queued e he
    · cases mem_singleton.mp he
  closed := f.closed
  late := f.late

def move : FeedMove → Feed
  | .commit id at_ kind => f.commit id at_ kind
  | .send i =>
    if f.closed then f
    else match h : f.log[i]? with
      | some e => f.send e (mem_of_getElem? h)
      | none => f
  | .lag missed => if f.closed then f else f.lag missed
  | .close => { f with closed := true }

variable (moves : List FeedMove)

def after : Feed := moves.foldl move f

def pop : Feed where
  log := f.log
  numbered := f.numbered
  queue := f.queue.tail
  queued := fun e he => f.queued e (mem_of_mem_tail he)
  closed := f.closed
  late := f.late

def poll : Option (Broadcast.Recv CoreEvent) :=
  match f.queue with
  | d :: _ => some d.recv
  | [] => if f.closed then some .closed else none

/-- All that is logged behind a position. -/
def history (afterSeq : ℕ) : List CoreEvent :=
  f.log.filter (fun e => afterSeq < e.seq)

theorem history_eq (afterSeq : ℕ) : f.history afterSeq = f.log.drop afterSeq := by
  have hfilter := Numbered.filter_lt f.numbered afterSeq
  simp only [Nat.zero_add] at hfilter
  exact hfilter

theorem numbered_drop (n : ℕ) : Numbered CoreEvent.seq (n + 1) (f.log.drop n) := by
  by_cases hle : n ≤ f.log.length
  · rw [Nat.add_comm]
    exact f.numbered.drop hle
  · rw [drop_eq_nil_of_le (by omega)]
    exact Numbered.nil _ _

structure Grows (f f' : Feed) : Prop where
  log : f.log <+: f'.log
  closed : f.closed = true → f'.closed = true
  late : f'.late = false → f.late = false
  final : f.closed = true → f'.late = false → f'.log = f.log

theorem Grows.refl : f.Grows f := ⟨prefix_rfl, id, id, fun _ _ => rfl⟩

theorem Grows.trans {f f' f'' : Feed} (h : f.Grows f') (h' : f'.Grows f'') : f.Grows f'' where
  log := h.log.trans h'.log
  closed := fun hc => h'.closed (h.closed hc)
  late := fun hl => h.late (h'.late hl)
  final := fun hc hl => (h'.final (h.closed hc) hl).trans (h.final hc (h'.late hl))

theorem grows_move (m : FeedMove) : f.Grows (f.move m) := by
  cases m with
  | commit task at_ kind =>
    refine ⟨prefix_append _ _, id, fun hl => ?_, fun hc hl => ?_⟩
    · exact (Bool.or_eq_false_iff.mp hl).1
    · have hopen := (Bool.or_eq_false_iff.mp hl).2
      rw [hc] at hopen
      cases hopen
  | send i =>
    simp only [move]
    split
    · exact .refl f
    · split
      · exact ⟨prefix_rfl, id, id, fun _ _ => rfl⟩
      · exact .refl f
  | lag missed =>
    simp only [move]
    split
    · exact .refl f
    · exact ⟨prefix_rfl, id, id, fun _ _ => rfl⟩
  | close => exact ⟨prefix_rfl, fun _ => rfl, id, fun _ _ => rfl⟩

theorem grows_after : f.Grows (f.after moves) := by
  induction moves generalizing f with
  | nil => exact .refl f
  | cons m moves ih => exact (f.grows_move m).trans (ih (f.move m))

theorem grows_pop : f.Grows f.pop := ⟨prefix_rfl, id, id, fun _ _ => rfl⟩

inductive Polls (f : Feed) : Broadcast.Recv CoreEvent → Prop where
  | event {e : CoreEvent} (he : e ∈ f.log) (hqueue : f.pop.queue.length + 1 = f.queue.length) :
      Polls f (.value e)
  | lag {missed : ℕ} (hqueue : f.pop.queue.length + 1 = f.queue.length) : Polls f (.lagged missed)
  | closed (hclosed : f.closed = true) : Polls f .closed

theorem polls_of_poll {f : Feed} (h : f.poll = some got) :
    f.Polls got := by
  unfold poll at h
  cases hqueue : f.queue with
  | nil =>
    rw [hqueue] at h
    obtain ⟨hclosed, ⟨⟩⟩ := Option.ite_none_right_eq_some.mp h
    exact .closed hclosed
  | cons d queue =>
    have hlength : f.pop.queue.length + 1 = f.queue.length := by simp [pop, hqueue]
    rw [hqueue] at h
    cases h
    cases d with
    | event e => exact .event (f.queued e (hqueue ▸ mem_cons_self ..)) hlength
    | lag missed => exact .lag hlength

theorem exists_poll {f : Feed} (h : f.closed = true) : ∃ got, f.poll = some got := by
  unfold poll
  cases f.queue with
  | nil => exact ⟨.closed, if_pos h⟩
  | cons d queue => exact ⟨d.recv, rfl⟩

def Quiet : Prop := ∀ id at_ kind, .commit id at_ kind ∉ moves

theorem after_of_quiet {f : Feed} {moves : List FeedMove} (hclosed : f.closed = true)
    (hquiet : Quiet moves) : f.after moves = f := by
  induction moves with
  | nil => rfl
  | cons m moves ih =>
    have hmove : f.move m = f := by
      cases m with
      | commit id at_ kind => exact absurd (mem_cons_self ..) (hquiet id at_ kind)
      | send i | lag missed => exact if_pos hclosed
      | close =>
        obtain ⟨log, hlog, queue, hqueue, closed, late⟩ := f
        cases hclosed
        rfl
    change after (f.move m) moves = f
    rw [hmove]
    exact ih (fun id at_ kind h => hquiet id at_ kind (mem_cons_of_mem _ h))

end Feed

/-- How the environment has moved before an operation, and whether a read fails. -/
structure FeedChoice where
  moves : List FeedMove
  fault : Option CoreError

def feedExec (f : Feed) (o : CoreOp historySig) (c : FeedChoice) : Option (Feed × o.Reply) :=
  match o with
  | .store (_, afterSeq) =>
    let f := f.after c.moves
    some (f, match c.fault with
      | some e => .error e
      | none => .ok (f.history afterSeq))
  | .recv _ receiver _ =>
    let f := f.after c.moves
    f.poll.map (fun got => (f.pop, (got, receiver)))
  | _ => none

/-- The environment as a service for one stream. -/
def feedService : Service (coreSig historySig) where
  State := Feed
  Choice := FeedChoice
  Entry := Unit
  Result := Unit
  init := ⟨[], Numbered.nil _ _, [], (fun _ h => by cases h), false, false⟩
  exec := fun _ => feedExec
  program := fun _ => .pure ()
  external := fun _ => false
  fork := fun _ => none

end AgentConnector.ReliableTaskStream
