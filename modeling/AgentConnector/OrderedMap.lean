import Mathlib.Tactic

/-!
# Ordered maps as sorted association lists

`insert` replaces the value of a key that is present, `orInsert` keeps it; both keep the keys
strictly ascending. Inserting ascending keys above all present ones appends them.
-/

namespace OrderedMap

open List

variable {κ ν : Type} [LinearOrder κ]

def insert (k : κ) (v : ν) : List (κ × ν) → List (κ × ν)
  | [] => [(k, v)]
  | (k', v') :: m =>
    if k < k' then (k, v) :: (k', v') :: m
    else if k = k' then (k, v) :: m
    else (k', v') :: insert k v m

def orInsert (k : κ) (v : ν) : List (κ × ν) → List (κ × ν)
  | [] => [(k, v)]
  | (k', v') :: m =>
    if k < k' then (k, v) :: (k', v') :: m
    else if k = k' then (k', v') :: m
    else (k', v') :: orInsert k v m

def values (m : List (κ × ν)) : List ν := m.map Prod.snd

variable {k : κ} {v : ν} {m : List (κ × ν)}

theorem insert_eq_append (h : ∀ p ∈ m, p.1 < k) : insert k v m = m ++ [(k, v)] := by
  induction m with
  | nil => rfl
  | cons p m ih =>
    have hp : p.1 < k := h p (mem_cons_self ..)
    simp only [insert, if_neg (not_lt_of_gt hp), if_neg (ne_of_gt hp), cons_append,
      ih (fun q hq => h q (mem_cons_of_mem _ hq))]

theorem orInsert_eq_append (h : ∀ p ∈ m, p.1 < k) : orInsert k v m = m ++ [(k, v)] := by
  induction m with
  | nil => rfl
  | cons p m ih =>
    have hp : p.1 < k := h p (mem_cons_self ..)
    simp only [orInsert, if_neg (not_lt_of_gt hp), if_neg (ne_of_gt hp), cons_append,
      ih (fun q hq => h q (mem_cons_of_mem _ hq))]

theorem orInsert_eq_self (hm : (m.map Prod.fst).Pairwise (· < ·)) (h : k ∈ m.map Prod.fst) :
    orInsert k v m = m := by
  induction m with
  | nil => simp at h
  | cons p m ih =>
    rw [map_cons, pairwise_cons] at hm
    rcases mem_cons.mp h with rfl | h
    · simp [orInsert]
    · have hp : p.1 < k := hm.1 k h
      simp only [orInsert, if_neg (not_lt_of_gt hp), if_neg (ne_of_gt hp), ih hm.2 h]

theorem mem_insert (h : p ∈ insert k v m) : p = (k, v) ∨ p ∈ m := by
  induction m with
  | nil => exact .inl (mem_singleton.mp h)
  | cons q m ih =>
    unfold insert at h
    split at h
    · exact mem_cons.mp h
    · split at h
      · rcases mem_cons.mp h with h | h
        · exact .inl h
        · exact .inr (mem_cons_of_mem _ h)
      · rcases mem_cons.mp h with h | h
        · exact .inr (h ▸ mem_cons_self ..)
        · exact (ih h).imp_right (mem_cons_of_mem _)

theorem mem_orInsert (h : p ∈ orInsert k v m) : p = (k, v) ∨ p ∈ m := by
  induction m with
  | nil => exact .inl (mem_singleton.mp h)
  | cons q m ih =>
    unfold orInsert at h
    split at h
    · exact mem_cons.mp h
    · split at h
      · exact .inr h
      · rcases mem_cons.mp h with h | h
        · exact .inr (h ▸ mem_cons_self ..)
        · exact (ih h).imp_right (mem_cons_of_mem _)

theorem keys_ascending_insert (hm : (m.map Prod.fst).Pairwise (· < ·)) :
    ((insert k v m).map Prod.fst).Pairwise (· < ·) := by
  induction m with
  | nil => exact pairwise_singleton _ _
  | cons q m ih =>
    rw [map_cons, pairwise_cons] at hm
    unfold insert
    split
    · rename_i hlt
      refine pairwise_cons.mpr ⟨fun x hx => ?_, pairwise_cons.mpr hm⟩
      rcases mem_cons.mp hx with rfl | hx
      · exact hlt
      · exact lt_trans hlt (hm.1 x hx)
    · split
      · rename_i heq
        subst heq
        exact pairwise_cons.mpr hm
      · rename_i hge hne
        refine pairwise_cons.mpr ⟨fun x hx => ?_, ih hm.2⟩
        obtain ⟨p, hp, rfl⟩ := mem_map.mp hx
        rcases mem_insert hp with rfl | hp
        · exact lt_of_le_of_ne (not_lt.mp hge) (Ne.symm hne)
        · exact hm.1 p.1 (mem_map_of_mem hp)

theorem keys_orInsert (k : κ) (v : ν) (m : List (κ × ν)) :
    (orInsert k v m).map Prod.fst = (insert k v m).map Prod.fst := by
  induction m with
  | nil => rfl
  | cons q m ih =>
    unfold orInsert insert
    split
    · rfl
    · split
      · rename_i heq
        simp [heq]
      · simp [ih]

theorem foldl_insert_eq_append (hes : (es.map Prod.fst).Pairwise (· < ·))
    (h : ∀ p ∈ m, ∀ e ∈ es, p.1 < e.1) :
    es.foldl (fun m e => insert e.1 e.2 m) m = m ++ es := by
  induction es generalizing m with
  | nil => simp
  | cons e es ih =>
    rw [map_cons, pairwise_cons] at hes
    rw [foldl_cons, insert_eq_append (fun p hp => h p hp e (mem_cons_self ..)),
      ih hes.2, append_assoc, singleton_append]
    intro p hp e' he'
    rcases mem_append.mp hp with hp | hp
    · exact h p hp e' (mem_cons_of_mem _ he')
    · rw [mem_singleton] at hp
      subst p
      exact hes.1 e'.1 (mem_map_of_mem he')

variable [BEq κ] [LawfulBEq κ]

theorem lookup_cons_eq (q : κ × ν) (m : List (κ × ν)) (k : κ) :
    (q :: m).lookup k = if k = q.1 then some q.2 else m.lookup k := by
  obtain ⟨a, b⟩ := q
  by_cases h : k = a
  · simp [h]
  · simp [lookup_cons, h, beq_false_of_ne h]

theorem lookup_insert (k : κ) (v : ν) (m : List (κ × ν)) (k' : κ) :
    (insert k v m).lookup k' = if k' = k then some v else m.lookup k' := by
  induction m with
  | nil => exact lookup_cons_eq _ _ _
  | cons q m ih =>
    unfold insert
    split
    · exact lookup_cons_eq _ _ _
    · split
      · rename_i heq
        rw [lookup_cons_eq, lookup_cons_eq, heq]
        split <;> rfl
      · rename_i hne
        rw [lookup_cons_eq, lookup_cons_eq, ih]
        by_cases h : k' = q.1
        · rw [if_pos h, if_pos h, if_neg (fun heq => hne (heq.symm.trans h))]
        · rw [if_neg h, if_neg h]

/-- The last entry with a key is the one that is found. -/
theorem lookup_foldl_insert (es : List (κ × ν)) (k : κ) :
    (es.foldl (fun m e => insert e.1 e.2 m) []).lookup k = es.reverse.lookup k := by
  induction es using List.reverseRecOn with
  | nil => rfl
  | append_singleton es e ih =>
    rw [foldl_append, foldl_cons, foldl_nil, lookup_insert, ih,
      reverse_append, reverse_singleton, singleton_append, lookup_cons_eq]

end OrderedMap
