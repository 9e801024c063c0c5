import Mathlib.Tactic

/-!
# Tables with a primary key

A table is a list of rows no two of which have the same key; the uniqueness is part of the value.
`find` looks a key up, `insert` adds a row under a new key, `put` adds or replaces, `modify` changes
the row of a key in place and `filter` deletes. Each of them is described by what `find` returns
afterwards. A hash map is a table of pairs with the first component as the key.
-/

namespace Keyed

open List

variable {κ α β : Type}

structure Table (key : α → κ) where
  rows : List α
  nodup : (rows.map key).Nodup

namespace Table

variable {key : α → κ}

def empty : Table key := ⟨[], nodup_nil⟩

/-- The rows that satisfy a condition. -/
def filter (t : Table key) (p : α → Bool) : Table key where
  rows := t.rows.filter p
  nodup := t.nodup.sublist (filter_sublist.map key)

def insert (t : Table key) (a : α) (h : key a ∉ t.rows.map key) : Table key where
  rows := t.rows ++ [a]
  nodup := by
    rw [map_append, map_singleton]
    exact List.Nodup.append t.nodup (nodup_singleton _) (by simpa using h)

@[simp] theorem rows_filter (t : Table key) (p : α → Bool) :
    (t.filter p).rows = t.rows.filter p := rfl

@[simp] theorem rows_insert (t : Table key) (a : α) (h : key a ∉ t.rows.map key) :
    (t.insert a h).rows = t.rows ++ [a] := rfl

variable {t : Table key} {a : α}

theorem eq_of_mem {b : α} (ha : a ∈ t.rows) (hb : b ∈ t.rows) (h : key a = key b) : a = b :=
  inj_on_of_nodup_map t.nodup ha hb h

variable [DecidableEq κ]

def find (t : Table key) (k : κ) : Option α := t.rows.find? (fun a => key a = k)

def put (t : Table key) (a : α) : Table key :=
  (t.filter (fun b => key b ≠ key a)).insert a (by simp)

def modify (t : Table key) (k : κ) (f : α → α) (hf : ∀ a, key (f a) = key a) : Table key where
  rows := t.rows.map (fun a => if key a = k then f a else a)
  nodup := by
    have hkeys : (t.rows.map (fun a => if key a = k then f a else a)).map key = t.rows.map key := by
      rw [map_map]
      apply map_congr_left
      intro a _
      rw [Function.comp_apply]
      split
      · exact hf a
      · rfl
    rw [hkeys]
    exact t.nodup

theorem map_rows_modify (t : Table key) (k : κ) {f : α → α} (hf : ∀ a, key (f a) = key a)
    {g : α → β} (hg : ∀ a, g (f a) = g a) : (t.modify k f hf).rows.map g = t.rows.map g := by
  rw [modify, map_map]
  apply map_congr_left
  intro a _
  rw [Function.comp_apply]
  split
  · exact hg a
  · rfl

variable {k : κ}

theorem find_eq_some_iff : t.find k = some a ↔ a ∈ t.rows ∧ key a = k := by
  constructor
  · intro h
    exact ⟨mem_of_find?_eq_some h, by simpa using find?_some h⟩
  · rintro ⟨ha, rfl⟩
    cases h : t.find (key a) with
    | none =>
      have hnone := find?_eq_none.mp h a ha
      simp at hnone
    | some b =>
      have hb : b ∈ t.rows := mem_of_find?_eq_some h
      have hkey : key b = key a := by simpa using find?_some h
      rw [eq_of_mem hb ha hkey]

theorem find_eq_none_iff : t.find k = none ↔ k ∉ t.rows.map key := by
  rw [find, find?_eq_none, mem_map]
  simp

theorem find_isSome_iff : (t.find k).isSome = true ↔ k ∈ t.rows.map key := by
  rw [Option.isSome_iff_ne_none, ne_eq, find_eq_none_iff, not_not]

theorem key_of_find (h : t.find k = some a) : key a = k :=
  (find_eq_some_iff.mp h).2

theorem find_key (ha : a ∈ t.rows) : t.find (key a) = some a :=
  find_eq_some_iff.mpr ⟨ha, rfl⟩

theorem find_map (t : Table key) {f : α → α} (hf : ∀ a, key (f a) = key a) (k : κ) :
    (t.rows.map f).find? (fun a => key a = k) = (t.find k).map f := by
  rw [find?_map, find]
  congr 2
  funext a
  simp [hf]

@[simp] theorem find_insert_self (t : Table key) (a : α) (h : key a ∉ t.rows.map key) :
    (t.insert a h).find (key a) = some a :=
  find_key (by simp)

theorem find_insert_ne (t : Table key) (h : key a ∉ t.rows.map key) (hk : k ≠ key a) :
    (t.insert a h).find k = t.find k := by
  simp [find, find?_append, Ne.symm hk]

theorem find_filter (t : Table key) (p : α → Bool) (k : κ) :
    (t.filter p).find k = (t.find k).filter p := by
  apply Option.ext
  intro a
  rw [Option.filter_eq_some_iff, find_eq_some_iff, find_eq_some_iff]
  simp [and_right_comm]

@[simp] theorem find_put_self (t : Table key) (a : α) : (t.put a).find (key a) = some a :=
  find_insert_self _ a _

theorem find_put_ne (t : Table key) (hk : k ≠ key a) : (t.put a).find k = t.find k := by
  rw [put, find_insert_ne _ _ hk, find_filter]
  cases h : t.find k with
  | none => rfl
  | some b => simp [Option.filter, key_of_find h, hk]

theorem find_modify_self (t : Table key) (k : κ) (f : α → α) (hf : ∀ a, key (f a) = key a) :
    (t.modify k f hf).find k = (t.find k).map f := by
  cases h : t.find k with
  | none =>
    rw [Option.map_none, find_eq_none_iff] at *
    rw [mem_map] at h
    simp only [modify, map_map, mem_map, Function.comp_apply, not_exists, not_and]
    intro a ha hkey
    apply h
    refine ⟨a, ha, ?_⟩
    split at hkey
    · assumption
    · exact hkey
  | some b =>
    obtain ⟨hb, hkey⟩ := find_eq_some_iff.mp h
    rw [Option.map_some, find_eq_some_iff]
    exact ⟨mem_map.mpr ⟨b, hb, if_pos hkey⟩, (hf b).trans hkey⟩

theorem find_modify_ne (t : Table key) {k' : κ} (f : α → α) (hf : ∀ a, key (f a) = key a)
    (h : k' ≠ k) : (t.modify k f hf).find k' = t.find k' := by
  apply Option.ext
  intro a
  rw [find_eq_some_iff, find_eq_some_iff]
  simp only [modify, mem_map]
  constructor
  · rintro ⟨⟨b, hb, hba⟩, hkey⟩
    split at hba
    · rename_i hbk
      exact absurd (by rw [← hkey, ← hba, hf, hbk]) h
    · exact ⟨hba ▸ hb, hkey⟩
  · rintro ⟨ha, hkey⟩
    exact ⟨⟨a, ha, if_neg (by rw [hkey]; exact h)⟩, hkey⟩

end Table

abbrev Map (κ ν : Type) := Table (fun e : κ × ν => e.1)

namespace Map

variable {ν : Type} [DecidableEq κ]

variable (m : Map κ ν) (k : κ)

def get : Option ν := (m.find k).map Prod.snd

def set (v : ν) : Map κ ν := m.put (k, v)

def remove : Map κ ν := m.filter (fun e => e.1 ≠ k)

/-- Changes every value (`values_mut`). -/
def mapValues (f : ν → ν) : Map κ ν where
  rows := m.rows.map (fun e => (e.1, f e.2))
  nodup := by
    rw [map_map]
    exact m.nodup

theorem get_eq_some_iff {m : Map κ ν} {k : κ} {v : ν} : get m k = some v ↔ (k, v) ∈ m.rows := by
  constructor
  · intro h
    obtain ⟨e, he, rfl⟩ := Option.map_eq_some_iff.mp h
    obtain ⟨hmem, rfl⟩ := Table.find_eq_some_iff.mp he
    exact hmem
  · intro h
    rw [get, Table.find_eq_some_iff.mpr ⟨h, rfl⟩]
    rfl

@[simp] theorem get_set_self (v : ν) : get (set m k v) k = some v := by
  rw [get, set, Table.find_put_self m (k, v)]
  rfl

theorem get_set_ne {k k' : κ} (v : ν) (h : k' ≠ k) : get (set m k v) k' = get m k' := by
  rw [get, set, Table.find_put_ne m h, get]

theorem get_set (k k' : κ) (v : ν) : get (set m k v) k' = if k' = k then some v else get m k' := by
  by_cases h : k' = k
  · rw [if_pos h, h, get_set_self]
  · rw [if_neg h, get_set_ne m v h]

theorem get_remove (k k' : κ) : get (remove m k) k' = if k' = k then none else get m k' := by
  rw [get, remove, Table.find_filter, get]
  cases h : m.find k' with
  | none => simp
  | some e =>
    have hkey : e.1 = k' := Table.key_of_find h
    by_cases hk : k' = k
    · simp [Option.filter, hkey, hk]
    · simp [Option.filter, hkey, hk]

theorem get_mapValues (f : ν → ν) (k : κ) : get (mapValues m f) k = (get m k).map f := by
  apply Option.ext
  intro v
  rw [get_eq_some_iff]
  simp only [mapValues, mem_map, Prod.mk.injEq, Option.map_eq_some_iff, get_eq_some_iff]
  constructor
  · rintro ⟨e, he, rfl, rfl⟩
    exact ⟨e.2, he, rfl⟩
  · rintro ⟨u, hu, rfl⟩
    exact ⟨(k, u), hu, rfl, rfl⟩

end Map

end Keyed
