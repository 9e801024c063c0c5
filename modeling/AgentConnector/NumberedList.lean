import Mathlib.Tactic

/-!
# Consecutively numbered lists

`Numbered f a l` states that the elements of `l` carry the numbers `a`, `a + 1`, … under `f`.
Numbers then determine elements, and cutting by number is cutting by position.
-/

def Numbered {α : Type} (f : α → ℕ) (a : ℕ) (l : List α) : Prop :=
  l.map f = List.range' a l.length

namespace Numbered

open List Option

variable {α : Type} {f : α → ℕ} {a : ℕ} {l l' : List α} {x y : α}

theorem nil (f : α → ℕ) (a : ℕ) : Numbered f a [] := rfl

theorem cons_iff : Numbered f a (x :: l) ↔ f x = a ∧ Numbered f (a + 1) l := by
  simp [Numbered, range'_succ]

theorem append_iff : Numbered f a (l ++ l') ↔ Numbered f a l ∧ Numbered f (a + l.length) l' := by
  induction l generalizing a with
  | nil => simp [Numbered]
  | cons x l ih =>
    rw [cons_append, cons_iff, cons_iff, ih, length_cons, and_assoc]
    have harith : a + 1 + l.length = a + (l.length + 1) := by omega
    rw [harith]

theorem concat (h : Numbered f a l) (hx : f x = a + l.length) : Numbered f a (l ++ [x]) :=
  append_iff.mpr ⟨h, cons_iff.mpr ⟨hx, nil f _⟩⟩

theorem mem_bounds (h : Numbered f a l) (hx : x ∈ l) : a ≤ f x ∧ f x < a + l.length := by
  have hmem : f x ∈ l.map f := mem_map_of_mem hx
  rw [h] at hmem
  exact mem_range'_1.mp hmem

theorem exists_mem (h : Numbered f a l) (hn : a ≤ n) (hn' : n < a + l.length) :
    ∃ x ∈ l, f x = n := by
  have hmem : n ∈ l.map f := by
    rw [h]
    exact mem_range'_1.mpr ⟨hn, hn'⟩
  exact mem_map.mp hmem

theorem pairwise (h : Numbered f a l) : (l.map f).Pairwise (· < ·) := by
  rw [h]
  exact pairwise_lt_range' 1

theorem inj (h : Numbered f a l) (hx : x ∈ l) (hy : y ∈ l) (hxy : f x = f y) : x = y := by
  induction l generalizing a with
  | nil => cases hx
  | cons z l ih =>
    obtain ⟨hz, hl⟩ := cons_iff.mp h
    rcases mem_cons.mp hx with rfl | hxl
    · rcases mem_cons.mp hy with rfl | hyl
      · rfl
      · have := (hl.mem_bounds hyl).1
        omega
    · rcases mem_cons.mp hy with rfl | hyl
      · have := (hl.mem_bounds hxl).1
        omega
      · exact ih hl hxl hyl

theorem getElem?_of_mem (h : Numbered f a l) (hx : x ∈ l) : l[f x - a]? = some x := by
  induction l generalizing a with
  | nil => cases hx
  | cons y l ih =>
    obtain ⟨hy, hl⟩ := cons_iff.mp h
    rcases mem_cons.mp hx with rfl | hxl
    · simp [hy]
    · have hbound := (hl.mem_bounds hxl).1
      have hindex : f x - a = f x - (a + 1) + 1 := by omega
      rw [hindex, getElem?_cons_succ]
      exact ih hl hxl

theorem of_getElem? (h : Numbered f a l) (hi : l[i]? = some x) : f x = a + i := by
  have hlt : i < l.length := (List.getElem?_eq_some_iff.mp hi).1
  have hmap : (l.map f)[i]? = some (f x) := by rw [List.getElem?_map, hi, map_some]
  rw [h, List.getElem?_range' hlt, Nat.one_mul] at hmap
  exact (Option.some.inj hmap).symm

theorem getLast?_getD (h : Numbered f 1 l) : (l.getLast?.map f).getD 0 = l.length := by
  rcases eq_nil_or_concat l with rfl | ⟨init, last, rfl⟩
  · rfl
  · rw [concat_eq_append] at h ⊢
    have hlast := (cons_iff.mp (append_iff.mp h).2).1
    rw [getLast?_concat, map_some, getD_some, length_append,
      length_singleton]
    omega

theorem mem_of_prefix (h : Numbered f a l) (hl : l' <+: l) (hx : x ∈ l)
    (hlt : f x < a + l'.length) : x ∈ l' := by
  obtain ⟨rest, rfl⟩ := hl
  rcases mem_append.mp hx with hx | hx
  · exact hx
  · have := ((append_iff.mp h).2.mem_bounds hx).1
    omega

theorem take (h : Numbered f a l) (n : ℕ) : Numbered f a (l.take n) := by
  rw [← take_append_drop n l] at h
  exact (append_iff.mp h).1

theorem drop (h : Numbered f a l) (hn : n ≤ l.length) : Numbered f (a + n) (l.drop n) := by
  rw [← take_append_drop n l] at h
  have := (append_iff.mp h).2
  rwa [length_take, Nat.min_eq_left hn] at this

theorem filter_lt (h : Numbered f (a + 1) l) (n : ℕ) :
    l.filter (fun x => decide (a + n < f x)) = l.drop n := by
  induction l generalizing a n with
  | nil => simp
  | cons x l ih =>
    obtain ⟨hx, hl⟩ := cons_iff.mp h
    cases n with
    | zero =>
      rw [drop_zero, filter_eq_self]
      intro y hy
      have := (h.mem_bounds hy).1
      simp only [decide_eq_true_eq]
      omega
    | succ n =>
      rw [drop_succ_cons, ← ih hl n, filter_cons_of_neg]
      · have harith : a + 1 + n = a + (n + 1) := by omega
        rw [harith]
      · simp only [decide_eq_true_eq]
        omega

end Numbered
