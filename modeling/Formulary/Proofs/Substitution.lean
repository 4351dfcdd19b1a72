import Formulary.Analysis

/-!
# Substitution with sharing

Substitution on nodes goes through each shared node once and looks it up afterwards. What becomes
of a node is one of four things (`Node.Substituted`), each of which has the formula of the plain
substitution (`Node.Substituted.formula`). The memo keeps to this as it grows, whatever is shared
below the root (`Substituter.Sound.walk`), because an identity in memory belongs to one node only:
so a node that comes back with its identity has come back unchanged.
-/

namespace Formulary

theorem lookup_map_values [BEq κ] (g : α → β) (m : List (κ × α)) (key : κ) :
    (m.map fun p => (p.1, g p.2)).lookup key = (m.lookup key).map g := by
  induction m with
  | nil => rfl
  | cons p m ih =>
    obtain ⟨key', a⟩ := p
    simp only [List.map_cons, List.lookup_cons]
    cases key == key' with
    | true => rfl
    | false => exact ih

namespace Node

theorem lookup_formulas (m : List (String × Node)) (name : String) :
    (formulas m).lookup name = (m.lookup name).map formula :=
  lookup_map_values formula m name

theorem nodes_subset_of_lookup [BEq κ] [LawfulBEq κ] {m : List (κ × Node)} {key : κ}
    (h : m.lookup key = some r) : r.nodes ⊆ nodesOf m := by
  obtain ⟨before, after, rfl, -⟩ := List.lookup_eq_some_iff.mp h
  intro n hn
  exact List.mem_flatMap.mpr ⟨(key, r), by simp, hn⟩

/-- What may become of a node by substitution. New nodes have identities from `first` on. -/
inductive Substituted (m : List (String × Node)) (first : Nat) : Node → Node → Prop
  | atom : m.lookup name = none → Substituted m first (.atom i name) (.atom i name)
  | replaced : m.lookup name = some r → Substituted m first (.atom i name) r
  | kept : Substituted m first left left → Substituted m first right right →
    Substituted m first (.binary i left op right) (.binary i left op right)
  | rebuilt : Substituted m first left l → Substituted m first right r →
    ¬ (l = left ∧ r = right) → first ≤ j →
    Substituted m first (.binary i left op right) (.binary j l op r)

namespace Substituted
variable {m : List (String × Node)} {n r : Node}

theorem formula (H : Substituted m first n r) :
    r.formula = n.formula.substitute (formulas m) := by
  induction H with
  | atom h | replaced h =>
    simp [Node.formula, Formula.substitute, lookup_formulas, h]
  | kept _ _ ihl ihr | rebuilt _ _ _ _ ihl ihr =>
    simp only [Node.formula, Formula.substitute, ← ihl, ← ihr]

/-- The result is the node itself, one of the mapping, or new. -/
theorem mem_or_le (H : Substituted m first n r) :
    r = n ∨ r ∈ nodesOf m ∨ first ≤ r.id := by
  cases H with
  | atom | kept => exact .inl rfl
  | replaced h => exact .inr (.inl (nodes_subset_of_lookup h r.mem_nodes_self))
  | rebuilt _ _ _ hid => exact .inr (.inr hid)

theorem eq_of_id_eq (H : Substituted m first n r) (ha : Allocated ns first) (hn : n ∈ ns)
    (hm : nodesOf m ⊆ ns) (h : r.id = n.id) : r = n := by
  rcases H.mem_or_le with hr | hr | hr
  · exact hr
  · exact ha.coherent r (hm hr) n hn h
  · have := ha.lt_next n hn
    omega

end Substituted
end Node

namespace Substituter
open Node

/-- The results in the memo are right for all nodes in `ns`, and with these nodes they are what is
in memory. -/
structure Sound (s : Substituter) (ns : List Node) (first next : Nat) : Prop where
  allocated : Allocated (ns ++ nodesOf s.memo) next
  first_le : first ≤ next
  substituted : ∀ n ∈ ns, ∀ r, s.memo.lookup n.id = some r → Substituted s.mapping first n r

variable {s : Substituter} {ns : List Node} {n r : Node}

theorem walk_of_lookup (h : s.memo.lookup n.id = some r) : s.walk next n = (r, s, next) := by
  unfold walk
  rw [h]

theorem walk_atom (h : s.memo.lookup i = none) : s.walk next (.atom i name) =
    let r := (s.mapping.lookup name).getD (.atom i name)
    (r, s.remember (.atom i name) r, next) := by
  unfold walk
  rw [id_atom, h]

theorem walk_kept {left right l r : Node} {s₁ s₂ : Substituter}
    (h : s.memo.lookup i = none) (hl : s.walk next left = (l, s₁, next₁))
    (hr : s₁.walk next₁ right = (r, s₂, next₂)) (hid : l.id = left.id ∧ r.id = right.id) :
    let n := Node.binary i left op right
    s.walk next n = (n, s₂.remember n n, next₂) := by
  intro n
  unfold walk
  simp only [n, id_binary, h, hl, hr, if_pos hid]

theorem walk_rebuilt {left right l r : Node} {s₁ s₂ : Substituter}
    (h : s.memo.lookup i = none) (hl : s.walk next left = (l, s₁, next₁))
    (hr : s₁.walk next₁ right = (r, s₂, next₂)) (hid : ¬ (l.id = left.id ∧ r.id = right.id)) :
    let n := Node.binary i left op right
    let n' := Node.binary next₂ l op r
    s.walk next n = (n', s₂.remember n n', next₂ + 1) := by
  intro n n'
  unfold walk
  simp only [n, n', id_binary, h, hl, hr, if_neg hid]

/-! ### The memo -/

namespace Sound
variable {first next : Nat}

theorem clear (ha : Allocated ns next) (s : Substituter) : s.clear.Sound ns next next where
  allocated := by simpa [nodesOf, Substituter.clear] using ha
  first_le := Nat.le_refl next
  substituted := fun _ _ _ h => by simp [Substituter.clear] at h

/-- One more result, the last of the nodes in memory. -/
theorem remember (H : s.Sound ns first next) (ha : Allocated ns first) (hn : n ∈ ns)
    (hr : Substituted s.mapping first n r) (hle : next ≤ next')
    (hall : Allocated (ns ++ (r.nodes ++ nodesOf s.memo)) next') :
    (s.remember n r).Sound ns first next' where
  allocated := hall
  first_le := Nat.le_trans H.first_le hle
  substituted := fun n' hn' r' h => by
    simp only [Substituter.remember, List.lookup_cons] at h
    split at h
    · rename_i hid
      cases h
      rw [ha.coherent n' hn' n hn (eq_of_beq hid)]
      exact hr
    · exact H.substituted n' hn' r' h

theorem remember_old (H : s.Sound ns first next) (ha : Allocated ns first) (hn : n ∈ ns)
    (hr : Substituted s.mapping first n r) (hsub : r.nodes ⊆ ns) :
    (s.remember n r).Sound ns first next := by
  refine H.remember ha hn hr (Nat.le_refl next) (H.allocated.mono ?_ (Nat.le_refl next))
  intro x hx
  simp only [List.mem_append] at hx ⊢
  rcases hx with hx | hx | hx
  · exact .inl hx
  · exact .inl (hsub hx)
  · exact .inr hx

end Sound

/-- What a walk from `n` to `r` has done. -/
structure Walked (s : Substituter) (ns : List Node) (first : Nat) (n r : Node)
    (s' : Substituter) (next' : Nat) : Prop where
  substituted : Substituted s.mapping first n r
  sound : s'.Sound ns first next'
  mapping : s'.mapping = s.mapping
  memo : nodesOf s.memo ⊆ nodesOf s'.memo
  nodes : r.nodes ⊆ ns ++ nodesOf s'.memo

namespace Walked
variable {s' s₁ s₂ : Substituter} {first next : Nat}

/-- A node that has been met before. -/
theorem of_lookup (H : s.Sound ns first next) (hn : n ∈ ns) (h : s.memo.lookup n.id = some r) :
    s.Walked ns first n r s next where
  substituted := H.substituted n hn r h
  sound := H
  mapping := rfl
  memo := List.Subset.refl _
  nodes := List.Subset.trans (nodes_subset_of_lookup h) (List.subset_append_right _ _)

/-- A node whose result was there before. -/
theorem of_old (H : s.Sound ns first next) (ha : Allocated ns first) (hn : n ∈ ns)
    (hr : Substituted s.mapping first n r) (hsub : r.nodes ⊆ ns) :
    s.Walked ns first n r (s.remember n r) next where
  substituted := hr
  sound := H.remember_old ha hn hr hsub
  mapping := rfl
  memo := List.subset_append_right _ _
  nodes := List.Subset.trans hsub (List.subset_append_left _ _)

/-- Both children come back with their identities, so they are the old ones. -/
theorem kept {left right l r : Node} (Hl : s.Walked ns first left l s₁ next₁)
    (Hr : s₁.Walked ns first right r s₂ next₂) (ha : Allocated ns first)
    (hm : nodesOf s.mapping ⊆ ns) (hn : (Node.binary i left op right).nodes ⊆ ns)
    (hid : l.id = left.id ∧ r.id = right.id) :
    let n := Node.binary i left op right
    s.Walked ns first n n (s₂.remember n n) next₂ := by
  intro n
  have hsl : left ∈ ns := hn (by simp [mem_nodes_self])
  have hsr : right ∈ ns := hn (by simp [mem_nodes_self])
  obtain rfl := Hl.substituted.eq_of_id_eq ha hsl hm hid.1
  obtain rfl := Hr.substituted.eq_of_id_eq ha hsr (Hl.mapping ▸ hm) hid.2
  have hnn : Substituted s.mapping first n n := .kept Hl.substituted (Hl.mapping ▸ Hr.substituted)
  have H := of_old Hr.sound ha (hn n.mem_nodes_self)
    ((Hr.mapping.trans Hl.mapping).symm ▸ hnn) hn
  exact ⟨hnn, H.sound, H.mapping.trans (Hr.mapping.trans Hl.mapping),
    List.Subset.trans (List.Subset.trans Hl.memo Hr.memo) H.memo, H.nodes⟩

/-- A child has changed, so there is a new node. -/
theorem rebuilt {left right l r : Node} (Hl : s.Walked ns first left l s₁ next₁)
    (Hr : s₁.Walked ns first right r s₂ next₂) (ha : Allocated ns first)
    (hn : (Node.binary i left op right).nodes ⊆ ns)
    (hid : ¬ (l.id = left.id ∧ r.id = right.id)) :
    let n := Node.binary i left op right
    let n' := Node.binary next₂ l op r
    s.Walked ns first n n' (s₂.remember n n') (next₂ + 1) := by
  intro n n'
  have hmapping : s₂.mapping = s.mapping := Hr.mapping.trans Hl.mapping
  have hnew : Substituted s.mapping first n n' := by
    refine .rebuilt Hl.substituted (Hl.mapping ▸ Hr.substituted) ?_ Hr.sound.first_le
    rintro ⟨rfl, rfl⟩
    exact hid ⟨rfl, rfl⟩
  -- the children are in memory already, so only the node itself takes a new identity
  have hall : Allocated (ns ++ (n'.nodes ++ nodesOf s₂.memo)) (next₂ + 1) := by
    refine (Hr.sound.allocated.cons (n := n') rfl).mono ?_ (Nat.le_refl _)
    intro x hx
    have hxl := @Hl.nodes x
    have hxr := @Hr.nodes x
    have hxm := @Hr.memo x
    simp only [nodes_binary, n', List.mem_append, List.mem_cons] at hx hxl hxr ⊢
    grind
  have H := Hr.sound.remember ha (hn n.mem_nodes_self) (hmapping.symm ▸ hnew)
    (Nat.le_succ next₂) hall
  refine ⟨hnew, H, hmapping, ?_, ?_⟩
  · exact List.Subset.trans (List.Subset.trans Hl.memo Hr.memo) (List.subset_append_right _ _)
  · exact List.Subset.trans (List.subset_append_left _ _) (List.subset_append_right ns _)

end Walked

theorem Sound.walk {next : Nat} (H : s.Sound ns first next) (ha : Allocated ns first)
    (hm : nodesOf s.mapping ⊆ ns) (hn : n.nodes ⊆ ns) :
    ∃ r s' next', s.walk next n = (r, s', next') ∧ s.Walked ns first n r s' next' := by
  have hmem : n ∈ ns := hn n.mem_nodes_self
  induction n generalizing s next with
  | atom i name =>
    cases h : s.memo.lookup i with
    | some r => exact ⟨r, s, next, walk_of_lookup h, .of_lookup H hmem h⟩
    | none =>
      refine ⟨_, _, _, walk_atom h, ?_⟩
      cases hr : s.mapping.lookup name with
      | none => exact .of_old H ha hmem (.atom hr) hn
      | some r =>
        have hsub := List.Subset.trans (nodes_subset_of_lookup hr) hm
        exact .of_old H ha hmem (.replaced hr) hsub
  | binary i left op right ihl ihr =>
    cases h : s.memo.lookup i with
    | some r => exact ⟨r, s, next, walk_of_lookup h, .of_lookup H hmem h⟩
    | none =>
      have hnl : left.nodes ⊆ ns := fun x hx => hn (by simp [hx])
      have hnr : right.nodes ⊆ ns := fun x hx => hn (by simp [hx])
      obtain ⟨l, s₁, next₁, hl, Hl⟩ := ihl H hm hnl (hnl left.mem_nodes_self)
      obtain ⟨r, s₂, next₂, hr, Hr⟩ :=
        ihr Hl.sound (Hl.mapping ▸ hm) hnr (hnr right.mem_nodes_self)
      by_cases hid : l.id = left.id ∧ r.id = right.id
      · exact ⟨_, _, _, walk_kept h hl hr hid, Hl.kept Hr ha hm hn hid⟩
      · exact ⟨_, _, _, walk_rebuilt h hl hr hid, Hl.rebuilt Hr ha hn hid⟩

/-- Substitution from whatever memo: its result, in memory with the nodes before it. -/
theorem substitute_spec {next : Nat} {root : Node} (ha : Allocated ns next)
    (hroot : root.nodes ⊆ ns) (hm : nodesOf s.mapping ⊆ ns) :
    Substituted s.mapping next root (s.substitute next root).1 ∧
      next ≤ (s.substitute next root).2.2 ∧
      Allocated (ns ++ (s.substitute next root).1.nodes) (s.substitute next root).2.2 := by
  have H : s.clear.Sound ns next next := .clear ha s
  obtain ⟨r, s', next', hwalk, W⟩ := H.walk ha hm hroot
  have hresult : s.substitute next root = (r, s'.clear, next') := by simp only [substitute, hwalk]
  rw [hresult]
  refine ⟨W.substituted, W.sound.first_le, W.sound.allocated.mono ?_ (Nat.le_refl _)⟩
  exact List.append_subset.mpr ⟨List.subset_append_left _ _, W.nodes⟩

theorem formula_value_substitute {m : List (String × Node)} {root : Node} {next : Nat}
    (ha : Allocated ns next) (hroot : root.nodes ⊆ ns) (hm : nodesOf m ⊆ ns) (l : Logger) :
    ((root.substitute m next).value l).1.formula = root.formula.substitute (formulas m) :=
  (substitute_spec (s := new m) ha hroot hm).1.formula

/-- Whatever is shared in memory and whatever the memo held before, the result has the formula of
the simultaneous substitution. -/
theorem formula_substitute (s : Substituter) (root : Node) (next : Nat)
    (ha : Allocated (root.nodes ++ nodesOf s.mapping) next) :
    (s.substitute next root).1.formula = root.formula.substitute (formulas s.mapping) ∧
      ∀ l, ((root.substitute s.mapping next).value l).1.formula =
        root.formula.substitute (formulas s.mapping) := by
  have hroot : root.nodes ⊆ root.nodes ++ nodesOf s.mapping := List.subset_append_left _ _
  have hm : nodesOf s.mapping ⊆ root.nodes ++ nodesOf s.mapping := List.subset_append_right _ _
  exact ⟨(substitute_spec ha hroot hm).1.formula,
    fun l => formula_value_substitute ha hroot hm l⟩

theorem formula_substitute_shared :
    let x := Node.atom 0 "x"
    let y := Node.atom 1 "y"
    let sum := Node.binary 2 x .plus y
    let root := Node.binary 3 sum .multiplication sum
    let m := [("x", Node.binary 4 x .minus y), ("y", x)]
    Allocated (root.nodes ++ nodesOf m) 5 ∧
      ((new m).substitute 5 root).1.formula.render = "(((x - y) + x) * ((x - y) + x))" := by
  intro x y sum root m
  have ha : Allocated (root.nodes ++ nodesOf m) 5 := by decide
  refine ⟨ha, ?_⟩
  rw [(formula_substitute (new m) root 5 ha).1]
  decide

end Substituter

end Formulary
