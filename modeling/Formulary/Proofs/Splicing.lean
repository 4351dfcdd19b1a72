import Formulary.Proofs.Substitution
import Formulary.Proofs.Written
import Formulary.Splice

/-!
# Substitution in texts

A text with names replaced in place by canonical texts is lexed piece by piece: what is left of the
old text, and the tokens of each new piece (`Token.Spans.splice`). These are the tokens of the
formula with the same names replaced (`Draft.Spelled.substitute`), so reading goes from the edited
text to the substituted formula. No new piece can run into its neighbours, because a text of a
formula ends where the next token begins (`Formula.Written.ofChars`).
-/

namespace Formulary
open Token

namespace Token

theorem splice_append {pos : Nat} {as : List Char} {edits : List (Token × String)}
    (h : ∀ e ∈ edits, pos + as.length ≤ e.1.start) (cs : List Char) :
    splice pos (as ++ cs) edits = as ++ splice (pos + as.length) cs edits := by
  cases edits with
  | nil => rfl
  | cons e edits =>
    obtain ⟨t, s⟩ := e
    have hstart : pos + as.length ≤ t.start := h (t, s) List.mem_cons_self
    have hstop : t.start ≤ t.stop := Nat.le_add_right _ _
    have htake : (as ++ cs).take (t.start - pos) =
        as ++ cs.take (t.start - (pos + as.length)) := by
      rw [List.take_append, List.take_of_length_le (by omega), Nat.sub_sub]
    have hdrop : (as ++ cs).drop (t.stop - pos) = cs.drop (t.stop - (pos + as.length)) := by
      rw [List.drop_append, List.drop_eq_nil_of_le (by omega), Nat.sub_sub, List.nil_append]
    rw [splice, splice, htake, hdrop]
    simp only [List.append_assoc]

/-- A token, or the tokens of the text that takes its place. -/
def respelled (r : Token → Option String) (t : Token) : List Token :=
  match r t with
  | some s => (Lexing.ofText s).tokens
  | none => [t]

theorem le_start_of_mem_edits {r : Token → Option String} (H : Spans pos ts cs) :
    ∀ e ∈ edits r ts, pos ≤ e.1.start := by
  intro e he
  obtain ⟨t, ht, hte⟩ := List.mem_filterMap.mp he
  obtain ⟨s, -, rfl⟩ := Option.map_eq_some_iff.mp hte
  exact H.le_start t ht

/-- A text with some tokens replaced consists of the tokens that are left and of those of the new
texts. -/
theorem Spans.splice {r : Token → Option String} (H : Spans pos ts cs)
    (hr : ∀ t s, r t = some s → (Lexing.ofText s).foreign? = none) :
    Segments (ts.flatMap (respelled r)) (splice pos cs (edits r ts)) := by
  induction H with
  | gap hg => exact .gap hg
  | @token g pos ts cs t hg hstart ht _ H ih =>
    have hpos : pos + (g ++ t.text.toList).length = t.stop := by
      rw [List.length_append, String.length_toList, Token.stop, hstart, Nat.add_assoc]
    rw [List.flatMap_cons, respelled]
    cases hrt : r t with
    | none =>
      have hedits : edits r (t :: ts) = edits r ts := by simp [edits, hrt]
      have hlater : ∀ e ∈ edits r ts, pos + (g ++ t.text.toList).length ≤ e.1.start := by
        rw [hpos]
        exact le_start_of_mem_edits H
      rw [hedits, splice_append hlater, hpos]
      exact .token hg ht ih
    | some s =>
      have hedits : edits r (t :: ts) = (t, s) :: edits r ts := by simp [edits, hrt]
      have hstop : t.stop - pos = (g ++ t.text.toList).length := by omega
      rw [hedits, Token.splice, hstop, List.drop_left, hstart, Nat.add_sub_cancel_left,
        List.append_assoc g, List.take_left, List.append_assoc]
      exact (((Lexing.segments (hr t s hrt)).append ih).of_ignored hg)

end Token

theorem Formula.Readable.lexing_render {f : Formula} (hf : f.Readable) :
    (Lexing.ofText f.render).foreign? = none ∧ f.draft.Spelled (Lexing.ofText f.render).tokens :=
  Reader.run_eq_ok_iff.mp (Formula.parse_eq_ok_iff.mpr hf.written)

section
variable {m : List (String × Formula)}

theorem Formula.readable_of_lookup (hm : ∀ p ∈ m, p.2.Readable) (h : m.lookup name = some g) :
    g.Readable := by
  obtain ⟨before, after, rfl, -⟩ := List.lookup_eq_some_iff.mp h
  exact hm (name, g) (by simp)

theorem Token.rendering?_of_name {t : Token} (h : t.kind = .identifier ∨ t.kind = .number) :
    t.rendering? m = (m.lookup t.text).map Formula.render := by
  rcases h with h | h <;> rw [rendering?, h]

/-- Parentheses and operators stay as they are. -/
theorem Token.rendering?_of_not_name {t : Token}
    (h : ¬ (t.kind = .identifier ∨ t.kind = .number)) : t.rendering? m = none := by
  cases hk : t.kind with
  | leftParen | rightParen | operator => rw [rendering?, hk]
  | identifier | number => simp [hk] at h

theorem Token.lexing_of_rendering? (hm : ∀ p ∈ m, p.2.Readable) {t : Token}
    (h : t.rendering? m = some s) : (Lexing.ofText s).foreign? = none := by
  by_cases hname : t.kind = .identifier ∨ t.kind = .number
  · rw [rendering?_of_name hname] at h
    obtain ⟨g, hg, rfl⟩ := Option.map_eq_some_iff.mp h
    exact (Formula.readable_of_lookup hm hg).lexing_render.1
  · rw [rendering?_of_not_name hname] at h
    cases h

/-- The tokens of a formula with names respelled are those of the substituted formula. -/
theorem Draft.Spelled.substitute {d : Draft} (H : d.Spelled ts) {f : Formula} (hf : f.draft = d)
    (hm : ∀ p ∈ m, p.2.Readable) :
    (f.substitute m).draft.Spelled (ts.flatMap (respelled (rendering? m))) := by
  have hkept (t : Token) (h : ¬ (t.kind = .identifier ∨ t.kind = .number)) :
      respelled (rendering? m) t = [t] := by
    rw [respelled, rendering?_of_not_name h]
  induction H generalizing f with
  | @atom t ht =>
    cases f with
    | binary => cases hf
    | atom name =>
      cases hf
      rw [List.flatMap_singleton, respelled, rendering?_of_name ht, Formula.substitute]
      cases hg : m.lookup t.text with
      | none => exact .atom ht
      | some g => exact (Formula.readable_of_lookup hm hg).lexing_render.2
  | @group d ts l r hl _ hr ih =>
    have := Spelled.group hl (ih hf) hr
    simpa [hkept l (by simp [hl]), hkept r (by simp [hr])] using this
  | @joined left ts right us l o r hl _ ho _ hr ihl ihr =>
    cases f with
    | atom => cases hf
    | binary left op right =>
      obtain ⟨hleft, hop, hright⟩ := Draft.joined.inj hf
      have := Spelled.joined hl (ihl hleft) ho (ihr hright) hr
      simpa [hkept l (by simp [hl]), hkept o (by simp [ho]), hkept r (by simp [hr]),
        Formula.substitute, Formula.draft, hop] using this

end

namespace Formula

theorem parse_substituteText {m : List (String × Formula)} {text : String} {f : Formula}
    (hm : ∀ p ∈ m, p.2.Readable) (h : parse text = .ok f) :
    parse (substituteText m text) = .ok (f.substitute m) := by
  obtain ⟨hforeign, hspelled⟩ := Reader.run_eq_ok_iff.mp h
  have hpieces : Segments _ (splice 0 text.toList (edits (rendering? m) _)) :=
    (Lexing.spans hforeign).splice fun t s hs => lexing_of_rendering? hm hs
  have hwritten : (f.substitute m).Written _ := (hspelled.substitute rfl hm).written rfl hpieces
  rw [parse_eq_ok_iff, substituteText, String.toList_ofList]
  exact hwritten

open Node in
/-- Replacing names in place by canonical texts and then reading gives what substitution makes of
the formula that was read before. -/
theorem read_substituteText_eq_substitute {m : List (String × Node)} {text : String}
    {root : Node} {next : Nat} {l : Logger} (ha : Allocated (root.nodes ++ nodesOf m) next)
    (hm : ∀ p ∈ m, p.2.formula.Readable) (h : (read text).value l = .ok root.formula) :
    (read (substituteText (formulas m) text)).value l =
      .ok ((root.substitute m next).value l).1.formula := by
  rw [value_read] at h
  have hm : ∀ p ∈ formulas m, p.2.Readable := by
    intro p hp
    obtain ⟨q, hq, rfl⟩ := List.mem_map.mp hp
    exact hm q hq
  rw [value_read, parse_substituteText hm h, Substituter.formula_value_substitute ha
    (List.subset_append_left _ _) (List.subset_append_right _ _) l]

open Node in
theorem read_substituteText_eq_substitute_tight :
    let x := Node.atom 0 "x"
    let sum := Node.binary 3 (.atom 1 "a") .plus (.atom 2 "1")
    let root := Node.binary 5 x .less (.atom 4 "1")
    let m := [("x", sum), ("1", x)]
    Allocated (root.nodes ++ nodesOf m) 6 ∧ (∀ p ∈ m, p.2.formula.Readable) ∧
      (read "(x<(1))").value .initial = .ok root.formula ∧
      (read "((a + 1)<(x))").value .initial =
        .ok ((root.substitute m 6).value .initial).1.formula := by
  intro x sum root m
  have ha : Allocated (root.nodes ++ nodesOf m) 6 := by decide
  have hx : IsAtomName "x" := .inl ⟨'x', [], rfl, by decide, nofun⟩
  have hname : IsAtomName "a" := .inl ⟨'a', [], rfl, by decide, nofun⟩
  have hnumber : IsAtomName "1" := .inr ⟨by decide, List.all_eq_true.mp (by decide)⟩
  have hm : ∀ p ∈ m, p.2.formula.Readable := by
    intro p hp
    simp only [m, List.mem_cons, List.not_mem_nil, or_false] at hp
    rcases hp with rfl | rfl
    · exact ⟨hname, hnumber⟩
    · exact hx
  have h : (read "(x<(1))").value .initial = .ok root.formula :=
    read_eq_ok_iff.mpr (.binary .nil (.atom .nil hx .nil)
      (.group .nil (.atom .nil hnumber .nil) .nil) .nil)
  have htext : substituteText (formulas m) "(x<(1))" = "((a + 1)<(x))" := by decide +kernel
  exact ⟨ha, hm, h, htext ▸ read_substituteText_eq_substitute ha hm h⟩

end Formula
end Formulary
