import AgentConnector.PostgresTaskStore
import AgentConnector.SqlEffects

/-!
# Writes of open transactions

The writes of a Postgres transaction are applied to the committed tables when it commits. They still
go through if, on the tasks they belong to, the tables then agree with those the transaction saw;
what other calls commit agrees with them because they cannot touch a locked row.
-/

namespace AgentConnector

open Concurrent Keyed List

variable {C : Columns}

namespace Write

/-- The write has an effect: the update finds its row, the event violates no constraint. -/
def Takes (d : Tables C) : Write C → Prop
  | update u => (d.updateTask u).2 = 1
  | event row => (d.insertEvent row).isSome

def AllTake : Tables C → List (Write C) → Prop
  | _, [] => True
  | d, w :: ws => w.Takes d ∧ AllTake (w.apply d) ws

theorem allTake_append (h : AllTake d ws) (hw : w.Takes (ws.foldl apply d)) :
    AllTake d (ws ++ [w]) := by
  induction ws generalizing d with
  | nil => exact ⟨hw, trivial⟩
  | cons w' ws ih => exact ⟨h.1, ih h.2 hw⟩

end Write

namespace Tables

/-- The rows of the tasks in `P` are the same, and these tasks have no events that they had not. -/
structure Agree (P : C.Id → Prop) (d d' : Tables C) : Prop where
  row : ∀ id, P id → d'.selectTask id = d.selectTask id
  events : ∀ e ∈ d'.events.rows, P e.taskId → e ∈ d.events.rows

variable {P : C.Id → Prop} {d d' : Tables C}

theorem Agree.refl (P : C.Id → Prop) (d : Tables C) : Agree P d d :=
    ⟨fun _ _ => rfl, fun _ h _ => h⟩

theorem Agree.trans (h : Agree P d d') (h' : Agree P d' d'') : Agree P d d'' where
  row id hid := (h'.row id hid).trans (h.row id hid)
  events e he hid := h.events e (h'.events e he hid) hid

theorem Agree.mono {P' : C.Id → Prop} (h : Agree P d d') (hP : ∀ id, P' id → P id) :
    Agree P' d d' :=
  ⟨fun id hid => h.row id (hP id hid), fun e he hid => h.events e he (hP _ hid)⟩

theorem mem_tasks_iff {id : C.Id} :
    id ∈ d.tasks.rows.map TaskRow.taskId ↔ ∃ row, d.selectTask id = some row := by
  rw [← Option.isSome_iff_exists]
  exact Table.find_isSome_iff.symm

theorem insertEvent_isSome_iff :
    (d.insertEvent row).isSome ↔ row.key ∉ d.events.rows.map EventRow.key ∧
      ∃ r, d.selectTask row.taskId = some r := by
  rw [← mem_tasks_iff]
  unfold insertEvent
  split
  · rename_i h
    exact ⟨fun _ => h, fun _ => rfl⟩
  · rename_i h
    exact ⟨fun h' => (by cases h'), fun h' => absurd h' h⟩

variable {w : Write C}

theorem Agree.takes (h : Agree P d d') (hP : P w.taskId) (hw : w.Takes d) : w.Takes d' := by
  cases w with
  | update u =>
    change (d'.updateTask u).2 = 1
    have hrow := h.row u.taskId hP
    change (d.updateTask u).2 = 1 at hw
    unfold updateTask at hw ⊢
    rw [hrow]
    cases hfind : d.selectTask u.taskId with
    | none =>
      rw [hfind] at hw
      cases hw
    | some row =>
      rw [hfind] at hw
      by_cases hrev : row.revision = u.current
      · simp [hrev]
      · simp [hrev] at hw
  | event row =>
    obtain ⟨hkey, r, hr⟩ := insertEvent_isSome_iff.mp hw
    refine insertEvent_isSome_iff.mpr ⟨fun hmem => hkey ?_, r, (h.row _ hP).trans hr⟩
    obtain ⟨e, he, heq⟩ := mem_map.mp hmem
    have hid : e.taskId = row.taskId := congrArg Prod.fst heq
    exact mem_map.mpr ⟨e, h.events e he (by rw [hid]; exact hP), heq⟩

theorem apply_update (h : (Write.update u).Takes d) :
    (Write.update u).apply d = d.modifyTask u := by
  obtain ⟨_, _, heq⟩ := updateTask_eq_one h
  exact heq

theorem apply_event (h : (Write.event row).Takes d) :
    d.insertEvent row = some ((Write.event row).apply d) := by
  obtain ⟨d', hd'⟩ := Option.isSome_iff_exists.mp h
  rw [Write.apply, hd']
  rfl

theorem selectTask_apply_event (row : EventRow C) (id : C.Id) :
    ((Write.event row).apply d).selectTask id = d.selectTask id := by
  rw [Write.apply]
  cases h : d.insertEvent row with
  | none => rfl
  | some d' =>
    change d'.selectTask id = _
    rw [selectTask, (insertEvent_eq_some h).2.2.1, selectTask]

theorem Agree.apply (h : Agree P d d') (hP : P w.taskId) (hw : w.Takes d) :
    Agree P (w.apply d) (w.apply d') := by
  have hw' := h.takes hP hw
  cases w with
  | update u =>
    rw [apply_update hw, apply_update hw']
    refine ⟨fun id hid => ?_, fun e he hid => h.events e he hid⟩
    by_cases heq : id = u.taskId
    · rw [heq, selectTask_modifyTask_self, selectTask_modifyTask_self, h.row u.taskId hP]
    · rw [selectTask_modifyTask_ne heq, selectTask_modifyTask_ne heq, h.row id hid]
  | event row =>
    refine ⟨fun id hid => ?_, fun e he hid => ?_⟩
    · rw [selectTask_apply_event, selectTask_apply_event, h.row id hid]
    · rw [(insertEvent_eq_some (apply_event hw')).2.1] at he
      rw [(insertEvent_eq_some (apply_event hw)).2.1]
      rcases mem_append.mp he with he | he
      · exact mem_append_left _ (h.events e he hid)
      · exact mem_append_right _ he

theorem Agree.allTake (h : Agree P d d') (hP : ∀ w ∈ ws, P w.taskId) (hws : Write.AllTake d ws) :
    Write.AllTake d' ws := by
  induction ws generalizing d d' with
  | nil => trivial
  | cons w ws ih =>
    have hw := hP w (mem_cons_self ..)
    exact ⟨h.takes hw hws.1,
      ih (h.apply hw hws.1) (fun w' hw' => hP w' (mem_cons_of_mem _ hw')) hws.2⟩

theorem agree_apply (hP : ¬ P w.taskId) : Agree P d (w.apply d) := by
  cases w with
  | update u =>
    rcases d.updateTask_cases u with ⟨_, _, _, heq⟩ | heq
    · rw [Write.apply, heq]
      refine ⟨fun id hid => selectTask_modifyTask_ne ?_, fun _ he _ => he⟩
      rintro rfl
      exact hP hid
    · rw [Write.apply, heq]
      exact .refl P d
  | event row =>
    refine ⟨fun id _ => selectTask_apply_event row id, fun e he hid => ?_⟩
    rw [Write.apply] at he
    cases h : d.insertEvent row with
    | none =>
      rw [h] at he
      exact he
    | some d' =>
      rw [h] at he
      change e ∈ d'.events.rows at he
      rw [(insertEvent_eq_some h).2.1] at he
      rcases mem_append.mp he with he | he
      · exact he
      · rw [mem_singleton.mp he] at hid
        exact absurd hid hP

theorem agree_foldl {ws : List (Write C)} (hP : ∀ w ∈ ws, ¬ P w.taskId) :
    Agree P d (ws.foldl Write.apply d) := by
  induction ws generalizing d with
  | nil => exact .refl P d
  | cons w ws ih =>
    exact (agree_apply (hP w (mem_cons_self ..))).trans
      (ih (fun w' hw' => hP w' (mem_cons_of_mem _ hw')))

theorem agree_insertTask (h : d.insertTask row = some d')
    (hP : ∀ id, P id → ∃ r, d.selectTask id = some r) : Agree P d d' := by
  obtain ⟨hid, _, htasks, _, hevents, _⟩ := insertTask_eq_some h
  refine ⟨fun id hPid => ?_, fun e he _ => by rw [← hevents]; exact he⟩
  rw [selectTask, htasks]
  refine Table.find_insert_ne _ hid ?_
  rintro rfl
  exact hid (mem_tasks_iff.mpr (hP _ hPid))

theorem agree_deleteTasks (hP : ∀ id ∈ picked, ¬ P id) :
    Agree P d (d.deleteTasks picked) where
  row id hid := by
    rcases d.deleteTasks_cases picked id with ⟨hmem, -⟩ | ⟨-, hsame, -⟩
    · exact absurd hid (hP id hmem)
    · exact hsame
  events e he _ := (mem_filter.mp he).1

theorem agree_deleteEvents (picked : List (C.Id × I64)) : Agree P d (d.deleteEvents picked) :=
  ⟨fun _ _ => rfl, fun _ he _ => (mem_filter.mp he).1⟩

theorem agree_of_eq (htasks : d'.tasks = d.tasks) (hevents : d'.events = d.events) :
    Agree P d d' := by
  refine ⟨fun id _ => ?_, fun e he _ => by rw [← hevents]; exact he⟩
  rw [selectTask, htasks, selectTask]

end Tables

end AgentConnector
