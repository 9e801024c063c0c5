import AgentConnector.StoredLogs

/-!
# Reading an event log from a cursor

`events_after` returns the first events of a task beyond a number, in ascending order. The cursor is
an unsigned number; the SQL stores cast it to a signed column, where one of 2⁶³ or more turns
negative and every event is beyond it.
-/

namespace AgentConnector

open Concurrent List

variable {α β ε : Type} {f : α → Except ε β}

theorem mapM_eq_ok_iff {l : List α} : l.mapM f = .ok r ↔ l.map f = r.map .ok := by
  induction l generalizing r with
  | nil =>
    rw [mapM_nil, map_nil]
    cases r with
    | nil => exact ⟨fun _ => rfl, fun _ => rfl⟩
    | cons b r => exact ⟨fun h => (by cases h), fun h => (by cases h)⟩
  | cons a l ih =>
    rw [mapM_cons, map_cons, except_bind_eq_ok_iff]
    constructor
    · rintro ⟨b, hb, hrest⟩
      obtain ⟨bs, hbs, heq⟩ := except_bind_eq_ok_iff.mp hrest
      cases heq
      rw [hb, ih.mp hbs]
      rfl
    · intro h
      cases r with
      | nil => cases h
      | cons b r =>
        obtain ⟨hb, hr⟩ := List.cons.inj h
        exact ⟨b, hb, except_bind_eq_ok_iff.mpr ⟨r, ih.mpr hr, rfl⟩⟩

theorem map_filter_eq {l : List α} {r : List β} {P : α → Bool} {Q : β → Bool}
    (h : l.map f = r.map .ok) (hPQ : ∀ a ∈ l, ∀ b, f a = .ok b → P a = Q b) :
    (l.filter P).map f = (r.filter Q).map .ok := by
  induction l generalizing r with
  | nil =>
    cases r with
    | nil => rfl
    | cons b r => cases h
  | cons a l ih =>
    cases r with
    | nil => cases h
    | cons b r =>
      obtain ⟨hb, hr⟩ := List.cons.inj h
      have hrest := ih hr (fun a' ha' => hPQ a' (mem_cons_of_mem _ ha'))
      have hsame := hPQ a (mem_cons_self ..) b hb
      cases hQ : Q b with
      | true =>
        rw [filter_cons_of_pos (hsame.trans hQ), filter_cons_of_pos hQ, map_cons,
          map_cons, hb, hrest]
      | false =>
        rw [filter_cons_of_neg (by rw [hsame, hQ]; exact Bool.false_ne_true),
          filter_cons_of_neg (by rw [hQ]; exact Bool.false_ne_true), hrest]

theorem pairwise_of_map {l : List α} {r : List β} {R : α → α → Prop} {T : β → β → Prop}
    (h : l.map f = r.map .ok) (hr : r.Pairwise T)
    (hRT : ∀ a ∈ l, ∀ a' ∈ l, ∀ b b', f a = .ok b → f a' = .ok b' → T b b' → R a a') :
    l.Pairwise R := by
  induction l generalizing r with
  | nil => exact List.Pairwise.nil
  | cons a l ih =>
    cases r with
    | nil => cases h
    | cons b r =>
      obtain ⟨hb, hrest⟩ := List.cons.inj h
      rw [pairwise_cons] at hr
      refine pairwise_cons.mpr ⟨fun a' ha' => ?_, ih hrest hr.2 (fun a₁ h₁ a₂ h₂ =>
        hRT a₁ (mem_cons_of_mem _ h₁) a₂ (mem_cons_of_mem _ h₂))⟩
      have hmem : f a' ∈ r.map Except.ok := by
        rw [← hrest]
        exact mem_map_of_mem ha'
      obtain ⟨b', hb', heq⟩ := mem_map.mp hmem
      exact hRT a (mem_cons_self ..) a' (mem_cons_of_mem _ ha') b b' hb
        heq.symm (hr.1 b' hb')

theorem toInt_of_asU64 (h : asU64 n < 2 ^ 63) : n.toInt = asU64 n :=
  BitVec.toInt_eq_toNat_of_lt (by unfold asU64 at h; omega)

theorem decode_selectEvents {C : Columns} {d : Tables C} {id : TaskId}
    (hes : (sqlView errors).Decodes d id es) (hsorted : (es.map CoreEvent.seq).Pairwise (· < ·))
    (hsmall : ∀ e ∈ es, e.seq < 2 ^ 63) (cursor : I64) (limit : ℕ) :
    decodeEvents errors id (d.selectEvents (C.id id) cursor limit) =
      .ok ((es.filter (fun e => cursor.toInt < e.seq)).take limit) := by
  have hes' : (d.eventRows (C.id id)).map (fun row => row.decode errors id) = es.map .ok := hes
  have hseq : ∀ row ∈ d.eventRows (C.id id), ∀ e, row.decode errors id = .ok e →
      row.seq.toInt = e.seq := by
    intro row hrow e he
    have hmem : e ∈ es := by
      have : row.decode errors id ∈ es.map Except.ok := by
        rw [← hes']
        exact mem_map_of_mem hrow
      obtain ⟨e', he', heq⟩ := mem_map.mp this
      rw [he] at heq
      cases heq
      exact he'
    have hdecode := (EventRow.decode_eq_ok he).2.1
    rw [hdecode]
    exact toInt_of_asU64 (by rw [← hdecode]; exact hsmall e hmem)
  have hpairwise : (d.eventRows (C.id id)).Pairwise (fun a b => a.seq.toInt ≤ b.seq.toInt) := by
    refine pairwise_of_map hes' (pairwise_map.mp hsorted) ?_
    intro a ha a' ha' e e' he he' hlt
    rw [hseq a ha e he, hseq a' ha' e' he']
    omega
  unfold decodeEvents Tables.selectEvents
  rw [(hpairwise.filter _).insertionSort_eq, mapM_eq_ok_iff, map_take, map_take]
  congr 1
  refine map_filter_eq hes' (fun row hrow e he => ?_)
  rw [BitVec.slt_eq_decide, hseq row hrow e he]

namespace StoreKind

def cursor : StoreKind → ℕ → ℤ
  | memory, afterSeq => afterSeq
  | _, afterSeq => (asI64 afterSeq).toInt

def page : StoreKind → ℕ → ℕ
  | memory, limit => limit
  | _, limit => min limit 10000

variable (k : StoreKind)

theorem call_eventsAfter {id : TaskId} (hrow : (k.machine.view.row d id).isSome = true)
    (hes : k.machine.view.Decodes d id es) (hsorted : (es.map CoreEvent.seq).Pairwise (· < ·))
    (hsmall : ∀ e ∈ es, e.seq < 2 ^ 63) (tid : ℕ) (now : DateTime) (afterSeq limit : ℕ) :
    k.machine.call tid now d (.eventsAfter id afterSeq limit) =
      some (d, .events (.ok ((es.filter (fun e => k.cursor afterSeq < e.seq)).take
        (k.page limit)))) := by
  cases k with
  | memory =>
    have hes' : MemoryState.log d id = es :=
      map_injective_iff.mpr (fun _ _ => Except.ok.inj) hes
    obtain ⟨s, hs⟩ := Option.isSome_iff_exists.mp hrow
    change some (d, StoreResult.events (MemoryState.eventsAfter d id afterSeq limit)) = _
    rw [MemoryState.eventsAfter, show d.tasks.find id = some s from hs, hes']
    simp [cursor, page]
  | sqlite C =>
    change some (d, StoreResult.events (decodeEvents _ id
      (d.committed.selectEvents (C.id id) (asI64 afterSeq) (min limit 10000)))) = _
    rw [decode_selectEvents hes hsorted hsmall]
    rfl
  | postgres J =>
    change some (d, StoreResult.events (decodeEvents _ id
      (d.committed.selectEvents ((Postgres.columns J).id id) (asI64 afterSeq)
        (min limit 10000)))) = _
    rw [decode_selectEvents hes hsorted hsmall]
    rfl

theorem cursor_of_lt (h : k = .memory ∨ afterSeq < 2 ^ 63) :
    k.cursor afterSeq = afterSeq := by
  have hsql : afterSeq < 2 ^ 63 → (asI64 afterSeq).toInt = afterSeq := fun hlt => by
    have hnat : asU64 (asI64 afterSeq) = afterSeq := asU64_asI64 (by omega)
    rw [toInt_of_asU64 (by omega), hnat]
  cases k with
  | memory => rfl
  | sqlite C | postgres J => exact hsql (h.resolve_left (fun h => by cases h))

theorem cursor_neg (hk : k ≠ .memory) (hlarge : 2 ^ 63 ≤ afterSeq) (hu64 : afterSeq < 2 ^ 64) :
    k.cursor afterSeq < 0 := by
  have hsql : (asI64 afterSeq).toInt < 0 := by
    have hnat : (asI64 afterSeq).toNat = afterSeq := asU64_asI64 hu64
    rw [BitVec.toInt_eq_toNat_cond, hnat, if_neg (by omega)]
    omega
  cases k with
  | memory => exact absurd rfl hk
  | sqlite C => exact hsql
  | postgres J => exact hsql

theorem page_of_le (h : limit ≤ 10000) : k.page limit = limit := by
  cases k with
  | memory => rfl
  | sqlite C | postgres J => exact min_eq_left h

end StoreKind

/-- The event has been appended to the task, under its number and with its kind. -/
def DurableMachine.Appended {M : DurableMachine} {db : M.Db} (p : Pool (storeService M db))
    (id : TaskId) (e : CoreEvent) : Prop :=
  ∃ st ∈ p.trace, ∃ th t cur a, p.threads[st.tid]? = some th ∧ th.entry = .append t ∧
    t.taskId = id ∧ M.view.AppliesTo t cur a st.pre st.post ∧ a.event.seq = e.seq ∧
    t.eventKind = e.kind

theorem DurableMachine.appended_of_reachable {strict : Prop} (hM : Obeys strict M)
    (hdb : M.Settled db) (hempty : ∀ id, M.view.row db id = none ∧ M.view.log db id = [])
    {p : Pool (storeService M db)} (hp : p.Reachable) (hlen : p.trace.length < 2 ^ 63) {id : TaskId}
    (hr : r ∈ M.view.log p.state id) :
    ∃ e, M.view.event id r = .ok e ∧ Appended p id e := by
  refine hp.trace_induction (K := fun _ d => ∀ r ∈ M.view.log d id,
    ∃ e, M.view.event id r = .ok e ∧ Appended p id e) (fun r hr => ?_)
    (fun l st l' htrace hpre r hr => ?_) r hr
  · rw [show M.view.log (storeService M db).init id = [] from (hempty id).2] at hr
    cases hr
  · have hmem : st ∈ p.trace := by
      rw [htrace]
      exact mem_append_right _ (mem_cons_self ..)
    obtain ⟨th, hth, hstep⟩ := taskStep_of_mem hM hdb hp hmem id
    generalize hentry : th.entry = c at hstep
    cases hstep with
    | same hsame =>
      rw [hsame.log] at hr
      exact hpre r hr
    | @append t cur a hid happlies =>
      subst hid
      obtain ⟨row, e, hlog, hevent, _, heseq, hekind⟩ := happlies.logged
      rw [hlog] at hr
      rcases mem_append.mp hr with hr | hr
      · exact hpre r hr
      · rw [mem_singleton] at hr
        subst hr
        obtain ⟨q, hq, hqtrace, hqstate⟩ := hp.exists_before htrace
        have hle := congrArg List.length htrace
        rw [length_append, length_cons] at hle
        have hnumbered := numbered_of_reachable hM hdb hempty hq (by rw [hqtrace]; omega) t.taskId
        rw [hqstate, hqtrace] at hnumbered
        have hcur := (hnumbered.counters cur happlies.current).2
        refine ⟨e, hevent, st, hmem, th, t, cur, a, hth, hentry, rfl, happlies, ?_, hekind.symm⟩
        rw [happlies.event.2.1, heseq (by omega)]
    | create hid hcreates _ =>
      subst hid
      rw [hcreates.log] at hr
      cases hr
    | clean _ hlog => exact hpre r (hlog.subset hr)
    | delete _ hlog =>
      rw [hlog] at hr
      cases hr

/-- A task with one event in the Postgres store. -/
def oneEvent : List (Action (storeService (postgresMachine .plain) PostgresDb.empty)) :=
  .call (.create (.under "caller" "key" 1)) :: List.replicate 3 (.step 0 {}) ++
    .call (.append (.to 1 0 .running)) :: List.replicate 7 (.step 1 {})

end AgentConnector
