import Formulary.Formula

/-!
# Canonical texts identify formulas

Names without spaces and parentheses cannot run into what stands around them, and neither can
operator symbols. So the canonical text of a formula ends where the formula does, whatever follows
(`Formula.render_append_inj`), and no two formulas share one. Names that look like symbols, or that
are empty, do no harm.
-/

namespace Formulary

/-- There is no space and no parenthesis in the name. -/
def IsBareName (name : String) : Prop :=
  ' ' ∉ name.toList ∧ '(' ∉ name.toList ∧ ')' ∉ name.toList

instance : DecidablePred IsBareName := fun name =>
  inferInstanceAs (Decidable (' ' ∉ name.toList ∧ '(' ∉ name.toList ∧ ')' ∉ name.toList))

/-- The characters begin with a space or a right parenthesis, unless there are none. -/
def EndsBareNames (cs : List Char) : Prop := ∀ c ∈ cs.head?, c = ' ' ∨ c = ')'

theorem endsBareNames_nil : EndsBareNames [] := nofun

theorem endsBareNames_space : EndsBareNames (' ' :: cs) := by simp [EndsBareNames]

theorem endsBareNames_rightParen : EndsBareNames (')' :: cs) := by simp [EndsBareNames]

namespace IsBareName

theorem takeWhile_append (hs : IsBareName s) (hcs : EndsBareNames cs) :
    (s.toList ++ cs).takeWhile (fun c => c ≠ ' ' && c ≠ ')') = s.toList := by
  have hname : ∀ c ∈ s.toList, (c ≠ ' ' && c ≠ ')') = true := by
    intro c hc
    have hspace : c ≠ ' ' := fun h => hs.1 (h ▸ hc)
    have hparen : c ≠ ')' := fun h => hs.2.2 (h ▸ hc)
    simp [hspace, hparen]
  have hrest : cs.takeWhile (fun c => c ≠ ' ' && c ≠ ')') = [] := by
    cases cs with
    | nil => rfl
    | cons c cs =>
      rcases hcs c rfl with rfl | rfl <;> exact List.takeWhile_cons_of_neg (by decide)
  rw [List.takeWhile_append_of_pos hname, hrest, List.append_nil]

theorem append_inj (hs : IsBareName s) (ht : IsBareName t) (hcs : EndsBareNames cs)
    (hds : EndsBareNames ds) (h : s.toList ++ cs = t.toList ++ ds) : s = t ∧ cs = ds := by
  have hst : s.toList = t.toList := by
    rw [← hs.takeWhile_append hcs, h, ht.takeWhile_append hds]
  rw [hst] at h
  exact ⟨String.toList_inj.mp hst, List.append_cancel_left h⟩

theorem append_ne_leftParen (hs : IsBareName s) (hcs : EndsBareNames cs) :
    s.toList ++ cs ≠ '(' :: ds := by
  intro h
  cases hl : s.toList with
  | nil =>
    rw [hl, List.nil_append] at h
    have := hcs '(' (by rw [h]; rfl)
    simp at this
  | cons c l =>
    rw [hl] at h
    obtain ⟨rfl, -⟩ := List.cons.inj h
    exact hs.2.1 (hl ▸ List.mem_cons_self)

end IsBareName

theorem Operator.isBareName_symbol (op : Operator) : IsBareName op.symbol := by
  cases op <;> decide

namespace Formula

theorem toList_render_binary (left : Formula) (op : Operator) (right : Formula) (cs : List Char) :
    (binary left op right).render.toList ++ cs = '(' :: (left.render.toList ++
      ' ' :: (op.symbol.toList ++ ' ' :: (right.render.toList ++ ')' :: cs))) := by
  simp

/-- A formula is told by the beginning of a text, and so is the rest of the text. -/
theorem render_append_inj {f g : Formula} (hf : f.EveryName IsBareName)
    (hg : g.EveryName IsBareName) (hcs : EndsBareNames cs) (hds : EndsBareNames ds)
    (h : f.render.toList ++ cs = g.render.toList ++ ds) : f = g ∧ cs = ds := by
  induction f generalizing g cs ds with
  | atom name =>
    cases g with
    | atom name' =>
      obtain ⟨hname, hrest⟩ := hf.append_inj hg hcs hds h
      exact ⟨by rw [hname], hrest⟩
    | binary left op right =>
      rw [toList_render_binary] at h
      exact absurd h (hf.append_ne_leftParen hcs)
  | binary left op right ihl ihr =>
    cases g with
    | atom name =>
      rw [toList_render_binary] at h
      exact absurd h.symm (hg.append_ne_leftParen hds)
    | binary left' op' right' =>
      rw [toList_render_binary, toList_render_binary] at h
      -- from left to right: the left operand ends before a space, and so does the symbol
      obtain ⟨hl, hop⟩ :=
        ihl hf.1 hg.1 endsBareNames_space endsBareNames_space (List.cons.inj h).2
      obtain ⟨hsymbol, hr⟩ := op.isBareName_symbol.append_inj op'.isBareName_symbol
        endsBareNames_space endsBareNames_space (List.cons.inj hop).2
      obtain ⟨hr, hrest⟩ :=
        ihr hf.2 hg.2 endsBareNames_rightParen endsBareNames_rightParen (List.cons.inj hr).2
      rw [hl, Operator.symbol_injective hsymbol, hr]
      exact ⟨rfl, (List.cons.inj hrest).2⟩

/-- Among formulas with bare names, equal texts mean equal formulas. -/
theorem render_eq_render_iff {f g : Formula} (hf : f.EveryName IsBareName)
    (hg : g.EveryName IsBareName) : f.render = g.render ↔ f = g := by
  constructor
  · intro h
    have h : f.render.toList ++ [] = g.render.toList ++ [] := by rw [h]
    exact (render_append_inj hf hg endsBareNames_nil endsBareNames_nil h).1
  · rintro rfl
    rfl

theorem render_eq_render_iff_symbols :
    let f := binary (atom "+") .plus (binary (atom "") .implicative (atom "->"))
    let g := binary (atom "+") .plus (binary (atom "->") .implicative (atom ""))
    f.EveryName IsBareName ∧ g.EveryName IsBareName ∧ f.render ≠ g.render := by
  intro f g
  have hf : f.EveryName IsBareName := by decide
  have hg : g.EveryName IsBareName := by decide
  exact ⟨hf, hg, fun h => absurd ((render_eq_render_iff hf hg).mp h) (by decide)⟩

end Formula

end Formulary
