import Mathlib.Data.List.Infix

/-!
# Running sums

The sums of weights over the beginnings of a list, and the greatest of them (`max?_total_inits`).
Where an element has weight 1 if it opens a group and -1 if it closes one, they say how many groups
are open: the greatest tells how deep the groups are nested, and none is negative if every group is
opened before it is closed (`Nested`).
-/

namespace Formulary

/-- The sum of the weights. -/
def total (weight : α → Int) : List α → Int
  | [] => 0
  | a :: l => weight a + total weight l

/-- The greatest sum of weights over the beginnings of a list. -/
def peak (weight : α → Int) : List α → Int
  | [] => 0
  | a :: l => max 0 (weight a + peak weight l)

section
variable {weight : α → Int} {l l' : List α}

theorem total_append (l m : List α) :
    total weight (l ++ m) = total weight l + total weight m := by
  induction l with
  | nil => simp only [List.nil_append, total, Int.zero_add]
  | cons a l ih => simp only [List.cons_append, total, ih, Int.add_assoc]

theorem total_neg (l : List α) : total (fun a => -weight a) l = -total weight l := by
  induction l with
  | nil => rfl
  | cons a l ih => rw [total, total, ih, Int.neg_add]

theorem peak_nonneg (l : List α) : 0 ≤ peak weight l := by
  cases l with
  | nil => exact Int.le_refl 0
  | cons a l => exact Int.le_max_left _ _

theorem peak_append (l m : List α) :
    peak weight (l ++ m) = max (peak weight l) (total weight l + peak weight m) := by
  have hm : 0 ≤ peak weight m := peak_nonneg m
  induction l with
  | nil => simp only [List.nil_append, peak, total]; omega
  | cons a l ih =>
    simp only [List.cons_append, peak, total, ih]
    omega

theorem peak_map (g : β → α) (l : List β) : peak weight (l.map g) = peak (weight ∘ g) l := by
  induction l with
  | nil => rfl
  | cons b l ih => rw [List.map_cons, peak, ih]; rfl

theorem total_le_peak (h : l <+: l') : total weight l ≤ peak weight l' := by
  obtain ⟨m, rfl⟩ := h
  have hm : 0 ≤ peak weight m := peak_nonneg m
  rw [peak_append]
  omega

theorem exists_total_eq_peak (weight : α → Int) (l : List α) :
    ∃ m, m <+: l ∧ total weight m = peak weight l := by
  induction l with
  | nil => exact ⟨[], List.prefix_rfl, rfl⟩
  | cons a l ih =>
    obtain ⟨m, hm, htotal⟩ := ih
    rcases Int.le_total (weight a + peak weight l) 0 with h | h
    · exact ⟨[], List.nil_prefix, (Int.max_eq_left h).symm⟩
    · refine ⟨a :: m, List.cons_prefix_cons.mpr ⟨rfl, hm⟩, ?_⟩
      rw [total, peak, htotal, Int.max_eq_right h]

theorem max?_total_inits (weight : α → Int) (l : List α) :
    (l.inits.map (total weight)).max? = some (peak weight l) := by
  obtain ⟨m, hm, htotal⟩ := exists_total_eq_peak weight l
  have hmem : total weight m ∈ l.inits.map (total weight) :=
    List.mem_map_of_mem ((List.mem_inits m l).mpr hm)
  rw [htotal] at hmem
  refine List.max?_eq_some_iff.mpr ⟨hmem, fun s hs => ?_⟩
  obtain ⟨m', hm', rfl⟩ := List.mem_map.mp hs
  exact total_le_peak ((List.mem_inits m' l).mp hm')

end

/-! ### Nested groups -/

/-- Every group that is opened is closed later and the other way round, and `depth` of them are open
at once where they are most. -/
structure Nested (weight : α → Int) (l : List α) (depth : Nat) : Prop where
  balanced : total weight l = 0
  deepest : peak weight l = depth
  shallowest : peak (fun a => -weight a) l = 0

namespace Nested
variable {weight : α → Int} {l l' : List α}

theorem nil : Nested weight [] 0 := ⟨rfl, rfl, rfl⟩

/-- An element that neither opens nor closes a group may stand in front. -/
theorem cons (ha : weight a = 0) (H : Nested weight l n) : Nested weight (a :: l) n where
  balanced := by rw [total, ha, H.balanced, Int.zero_add]
  deepest := by
    rw [peak, ha, H.deepest]
    omega
  shallowest := by rw [peak, ha, H.shallowest]; rfl

theorem of_forall_eq_zero (h : ∀ a ∈ l, weight a = 0) : Nested weight l 0 := by
  induction l with
  | nil => exact .nil
  | cons a l ih =>
    obtain ⟨ha, hl⟩ := List.forall_mem_cons.mp h
    exact .cons ha (ih hl)

theorem append (H : Nested weight l m) (H' : Nested weight l' n) :
    Nested weight (l ++ l') (max m n) where
  balanced := by rw [total_append, H.balanced, H'.balanced, Int.zero_add]
  deepest := by
    rw [peak_append, H.balanced, H.deepest, H'.deepest]
    omega
  shallowest := by
    rw [peak_append, total_neg, H.balanced, H.shallowest, H'.shallowest]
    rfl

theorem group (ha : weight a = 1) (H : Nested weight l n) (hb : weight b = -1) :
    Nested weight (a :: l ++ [b]) (n + 1) where
  balanced := by
    simp only [List.cons_append, total, total_append, ha, hb, H.balanced]
    omega
  deepest := by
    simp only [List.cons_append, peak, peak_append, ha, hb, H.balanced, H.deepest]
    omega
  shallowest := by
    simp only [List.cons_append, peak, peak_append, total_neg, ha, hb, H.balanced, H.shallowest]
    omega

theorem nonneg_of_prefix (H : Nested weight l n) (h : l' <+: l) : 0 ≤ total weight l' := by
  have hneg : total (fun a => -weight a) l' ≤ peak (fun a => -weight a) l := total_le_peak h
  rw [total_neg, H.shallowest] at hneg
  omega

end Nested

end Formulary
