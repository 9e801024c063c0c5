import AgentConnector.EntryOps
import AgentConnector.LinearHistory

/-!
# Store calls inside the core

A thread of the core that calls the store has the same part of the store's state to itself as a
call on the store alone. So what is known of a method of the store, whatever other calls do in
between, holds for the method as a part of a program of the core.
-/

namespace AgentConnector

open Concurrent List

abbrev StoreMachine.startedAt (M : StoreMachine) (db : M.Db) : StoreMachine :=
  { M with empty := db }

def CoreOp.isStore {τ : Signature} : CoreOp τ → Bool
  | .store _ => true
  | _ => false

def CoreOp.isSpawn {τ : Signature} : CoreOp τ → Bool
  | .spawn _ => true
  | _ => false

theorem exists_store {o : CoreOp τ} (h : o.isStore = true) :
    ∃ o', o = .store o' := by
  cases o with
  | store o' => exact ⟨o', rfl⟩
  | _ => cases h

section

variable {M : StoreMachine} {s s' : CoreState M.Db} {tid : ℕ} {c : CoreChoice M.Choice}

theorem coreExec_db_eq (ho : o.isStore = false) (hex : coreExec M tid s o c = some (s', r)) :
    s'.db = s.db := by
  rcases (coreMove_of_exec hex).frame.1 with ⟨o', rfl⟩ | h
  · cases ho
  · exact h

end

namespace DurableMachine

variable {M : DurableMachine} {db : M.Db} {setup : CoreSetup}

/-- A core on a store. -/
abbrev core (M : DurableMachine) (db : M.Db) (setup : CoreSetup) : Service (coreSig M.sig) :=
  coreService (M.toStoreMachine.startedAt db) setup

def overCore (I : Isolation (storeService M db)) (setup : CoreSetup) :
    Isolation (M.core db setup) where
  inv s := I.inv s.db
  Local := I.Local
  loc tid s := I.loc tid s.db
  idle := I.idle
  inv_init := I.inv_init
  loc_init := I.loc_init
  inv_exec {tid s o c s' r} hinv hex := by
    cases ho : o.isStore with
    | true =>
      obtain ⟨o', rfl⟩ := exists_store ho
      obtain ⟨db', hdb, rfl⟩ := coreExec_store hex
      exact I.inv_exec hinv hdb
    | false =>
      rw [coreExec_db_eq (M := M.toStoreMachine.startedAt db) ho hex]
      exact hinv
  loc_exec {tid j s o c s' r} hinv hex hj := by
    cases ho : o.isStore with
    | true =>
      obtain ⟨o', rfl⟩ := exists_store ho
      obtain ⟨db', hdb, rfl⟩ := coreExec_store hex
      exact I.loc_exec hinv hdb hj
    | false => rw [coreExec_db_eq (M := M.toStoreMachine.startedAt db) ho hex]

def NoSpawn (l : List (Step (M.core db setup))) : Prop := ∀ st ∈ l, st.op.isSpawn = false

theorem NoSpawn.cons (hl : NoSpawn l) (hst : st.op.isSpawn = false) : NoSpawn (st :: l) := by
  intro st' hst'
  rcases mem_cons.mp hst' with rfl | hmem
  · exact hst
  · exact hl st' hmem

/-- The steps `l` of the core contain the steps `ls` of the store. -/
def Shows (l : List (Step (M.core db setup))) (ls : List (Step (storeService M db))) : Prop :=
  ∀ st ∈ ls, ∃ st' ∈ l, st'.pre.db = st.pre ∧ st'.post.db = st.post

variable {I : Isolation (storeService M db)} {tid : ℕ} {x : I.Local} {α : Type}
  {l : List (Step (M.core db setup))}
  {G : List (Step (M.core db setup)) → Step (M.core db setup) → Prop}

theorem safe_embed {Q : α → I.Local → List (Step (storeService M db)) → Prop}
    (hp : I.Safe tid (fun _ _ => True) Q p x ls) (hG : ∀ l st, st.op.isSpawn = false → G l st)
    (hls : Shows l ls) (hl : NoSpawn l) :
    (overCore I setup).Safe tid G
      (fun a x' l' => ∃ ls', Q a x' ls' ∧ Shows l' ls' ∧ NoSpawn l' ∧ l ⊆ l')
      (p.embed (storeEmbedding M.sig)) x l := by
  induction p generalizing x l ls with
  | pure a => exact ⟨ls, hp, hls, hl, List.Subset.refl l⟩
  | op o k ih =>
    intro s c s' r next hinv hloc hex
    refine ⟨hG _ _ rfl, ?_⟩
    obtain ⟨db', hdb, rfl⟩ := coreExec_store hex
    obtain ⟨_, hrest⟩ := hp s.db c.store db' r next hinv hloc hdb
    refine Isolation.Safe.mono (ih r hrest ?_ (hl.cons rfl)) ?_
    · intro st hst
      rcases mem_cons.mp hst with rfl | hmem
      · exact ⟨_, mem_cons_self .., rfl, rfl⟩
      · obtain ⟨st', hst', heq⟩ := hls st hmem
        exact ⟨st', mem_cons_of_mem _ hst', heq⟩
    · rintro a x' l' ⟨ls', hQ, hls', hl', hsub⟩
      exact ⟨ls', hQ, hls', hl', fun st hst => hsub (mem_cons_of_mem _ hst)⟩

theorem safe_outside
    (hp : p.Everywhere (fun o : CoreOp M.sig => o.isStore = false ∧ o.isSpawn = false))
    (hG : ∀ l st, st.op.isSpawn = false → G l st) (hl : NoSpawn l) :
    (overCore I setup).Safe tid G (fun _ x' l' => x' = x ∧ NoSpawn l') p x l := by
  induction p generalizing x l with
  | pure a => exact ⟨rfl, hl⟩
  | op o k ih =>
    intro s c s' r next hinv hloc hex
    refine ⟨hG _ _ hp.1.2, ?_⟩
    have hdb : s'.db = s.db :=
      coreExec_db_eq hp.1.1 hex
    have hx : I.loc tid s'.db = x := by
      rw [hdb]
      exact hloc
    have hl' : NoSpawn (⟨tid, o, r, s, s', next⟩ :: l) := hl.cons hp.1.2
    have hrest := ih r (hp.2 r) (x := x) hl'
    rw [← hx] at hrest ⊢
    exact hrest

theorem safe_between (hp : p.Everywhere (fun o : CoreOp M.sig => o.isSpawn = false))
    (hG : ∀ l st, st.op.isSpawn = false → G l st) (hl : NoSpawn l) :
    (overCore I setup).Safe tid G (fun _ _ l' => NoSpawn l' ∧ l ⊆ l') p x l := by
  refine Isolation.safe_of_everywhere hp ?_ (fun _ _ _ h => h) ⟨hl, List.Subset.refl l⟩
  rintro l' st ⟨hl', hsub⟩ hst - - -
  exact ⟨hG l' st hst, hl'.cons hst, fun st' hst' => mem_cons_of_mem _ (hsub hst')⟩

theorem safe_fromStore {Q : Except StoreError α → I.Local → List (Step (storeService M db)) → Prop}
    (hp : I.Safe tid (fun _ _ => True) Q p x []) (hG : ∀ l st, st.op.isSpawn = false → G l st)
    (hl : NoSpawn l) :
    (overCore I setup).Safe tid G (fun r x' l' => NoSpawn l' ∧ l ⊆ l' ∧
        ∃ r' ls', Q r' x' ls' ∧ Shows l' ls' ∧ r = r'.mapError CoreError.store)
      (fromStore p).run x l := by
  refine Isolation.safe_bind (Isolation.Safe.mono (safe_embed hp hG ?_ hl) ?_)
  · exact fun st hst => by cases hst
  · rintro r x' l' ⟨ls', hQ, hls', hl', hsub⟩
    exact ⟨hl', hsub, r, ls', hQ, hls', rfl⟩

end DurableMachine

end AgentConnector
