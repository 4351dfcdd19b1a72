import Formulary.Analysis
import Formulary.Proofs.Lexing
import Formulary.Proofs.Run

/-!
# Texts of formulas

Reading accepts the texts of formulas and no others, each with its formula
(`Formula.read_eq_ok_iff`). The tokens of a text are those of its formula, because no
piece of it can grow into the next one (`Formula.Written.ofChars`), and characters whose tokens are
those of a formula are one of its texts (`Draft.Spelled.written`).
-/

namespace Formulary
open Token

/-! ### Where names and operators end -/

/-- A name before these characters has its end there. -/
def Token.EndsNames (cs : List Char) : Prop :=
  Kind.identifier.EndsBefore cs ∧ Kind.number.EndsBefore cs

namespace Token.EndsNames

theorem nil : EndsNames [] := ⟨Kind.endsBefore_nil, Kind.endsBefore_nil⟩

theorem rightParen : EndsNames (')' :: cs) :=
  ⟨Kind.endsBefore_rightParen, Kind.endsBefore_rightParen⟩

theorem gap (hg : IsGap g) (h : EndsNames cs) : EndsNames (g ++ cs) := ⟨h.1.gap hg, h.2.gap hg⟩

theorem operator (hw : Kind.operator.Matches w) : EndsNames (w ++ cs) := by
  cases w with
  | nil => exact (Kind.not_matches_nil hw).elim
  | cons c w =>
    obtain ⟨_, h1, h2, _⟩ := of_isOperatorChar (Kind.matches_cons.mp hw).1
    exact ⟨Kind.endsBefore_cons.mpr h1, Kind.endsBefore_cons.mpr h2⟩

end Token.EndsNames

theorem IsAtomName.exists_kind (hname : IsAtomName name) (hrest : EndsNames rest) :
    ∃ k : Kind, (k = .identifier ∨ k = .number) ∧ k.Matches name.toList ∧ k.EndsBefore rest := by
  rcases hname with h | h
  · exact ⟨_, .inl rfl, h, hrest.1⟩
  · exact ⟨_, .inr rfl, h, hrest.2⟩

theorem Token.Kind.Matches.endsBefore_operator {k : Kind} (hw : k.Matches w) (hk : k ≠ .operator) :
    Kind.operator.EndsBefore (w ++ cs) := by
  cases w with
  | nil => exact (Kind.not_matches_nil hw).elim
  | cons c w =>
    refine Kind.endsBefore_cons.mpr (Bool.eq_false_iff.mpr fun hc => hk ?_)
    exact Kind.starts_unique (Kind.matches_cons.mp hw).1 hc

theorem Operator.matches_symbol (op : Operator) : Kind.operator.Matches op.symbol.toList := by
  cases op <;> exact ⟨by decide, List.all_eq_true.mp (by decide)⟩

/-- No operator goes on with the text of a formula. -/
theorem Formula.Written.endsBefore_operator {f : Formula} (H : f.Written cs) :
    Kind.operator.EndsBefore (cs ++ ds) := by
  have hparen : Kind.leftParen.Matches ['('] := rfl
  cases H with
  | atom hg hname _ =>
    rw [List.append_assoc, List.append_assoc]
    refine .gap hg ?_
    rcases hname with h | h
    · exact h.endsBefore_operator nofun
    · exact h.endsBefore_operator nofun
  | group hg _ _ | binary hg _ _ _ =>
    simp only [List.append_assoc, List.cons_append]
    exact .gap hg (hparen.endsBefore_operator nofun)

/-! ### The tokens of a text -/

namespace Lexing

theorem ofChars_text {k : Kind} {s : String} (hs : k.Matches s.toList) (hcs : k.EndsBefore cs)
    (pos : Nat) : ofChars pos (s.toList ++ cs) =
      after [⟨k, s, pos⟩] (ofChars (pos + s.toList.length) cs) := by
  rw [ofChars_token hs hcs, String.ofList_toList]

theorem ofChars_leftParen (pos : Nat) (cs : List Char) :
    ofChars pos ('(' :: cs) = after [⟨.leftParen, "(", pos⟩] (ofChars (pos + 1) cs) :=
  ofChars_text (k := .leftParen) (s := "(") rfl (by cases cs <;> simp [Kind.continues]) pos

theorem ofChars_rightParen (pos : Nat) (cs : List Char) :
    ofChars pos (')' :: cs) = after [⟨.rightParen, ")", pos⟩] (ofChars (pos + 1) cs) :=
  ofChars_text (k := .rightParen) (s := ")") rfl (by cases cs <;> simp [Kind.continues]) pos

end Lexing

open Lexing in
/-- The text of a formula, whatever follows that cannot go on with a name, gives the tokens of the
formula. -/
theorem Formula.Written.ofChars {f : Formula} (H : f.Written cs) (pos : Nat)
    (hrest : EndsNames rest) : ∃ ts, f.draft.Spelled ts ∧
      ofChars pos (cs ++ rest) = after ts (ofChars (pos + cs.length) rest) := by
  induction H generalizing pos rest with
  | @atom g name g' hg hname hg' =>
    obtain ⟨k, hk, hname, hend⟩ := hname.exists_kind (hrest.gap hg')
    refine ⟨_, .atom (t := ⟨k, name, pos + g.length⟩) hk, ?_⟩
    rw [List.append_assoc, List.append_assoc, ofChars_gap hg, ofChars_text hname hend,
      ofChars_gap hg']
    simp [Nat.add_assoc]
  | @group g f cs g' hg _ hg' ih =>
    have hend : EndsNames (')' :: (g' ++ rest)) := .rightParen
    obtain ⟨ts, hts, h⟩ := ih (pos + g.length + 1) hend
    refine ⟨_, .group (l := ⟨.leftParen, "(", pos + g.length⟩)
      (r := ⟨.rightParen, ")", pos + g.length + 1 + cs.length⟩) rfl hts rfl, ?_⟩
    have hpos : pos + g.length + 1 + cs.length + 1 + g'.length =
        pos + (g ++ '(' :: cs ++ ')' :: g').length := by
      simp only [List.length_append, List.length_cons]
      omega
    rw [← hpos]
    simp only [List.append_assoc, List.cons_append]
    rw [ofChars_gap hg, ofChars_leftParen, h, ofChars_rightParen, ofChars_gap hg']
    simp
  | @binary g left cs right ds g' op hg _ hr hg' ihl ihr =>
    -- the operator may touch both operands: each of the three ends before the next one
    have hop := op.matches_symbol
    have hstop : Kind.operator.EndsBefore (ds ++ ')' :: (g' ++ rest)) := hr.endsBefore_operator
    have hendl : EndsNames (op.symbol.toList ++ (ds ++ ')' :: (g' ++ rest))) := .operator hop
    have hendr : EndsNames (')' :: (g' ++ rest)) := .rightParen
    let p := pos + g.length + 1 + cs.length
    let q := p + op.symbol.toList.length
    obtain ⟨ts, hts, h⟩ := ihl (pos + g.length + 1) hendl
    obtain ⟨us, hus, h'⟩ := ihr q hendr
    refine ⟨_, .joined (l := ⟨.leftParen, "(", pos + g.length⟩) (o := ⟨.operator, op.symbol, p⟩)
      (r := ⟨.rightParen, ")", q + ds.length⟩) rfl hts rfl hus rfl, ?_⟩
    have hpos : q + ds.length + 1 + g'.length =
        pos + (g ++ '(' :: cs ++ op.symbol.toList ++ ds ++ ')' :: g').length := by
      simp only [List.length_append, List.length_cons, p, q]
      omega
    rw [← hpos]
    simp only [List.append_assoc, List.cons_append]
    rw [ofChars_gap hg, ofChars_leftParen, h, ofChars_text hop hstop, h', ofChars_rightParen,
      ofChars_gap hg']
    simp [p]

/-- Characters that consist of the tokens of a formula are one of its texts. -/
theorem Draft.Spelled.written {d : Draft} (H : d.Spelled ts) {f : Formula} (hf : f.draft = d)
    (hs : Segments ts cs) : f.Written cs := by
  induction H generalizing f cs with
  | @atom t ht =>
    obtain ⟨g, g', rfl, hg, hg', hw⟩ := hs.singleton
    cases f with
    | binary => cases hf
    | atom name =>
      cases hf
      refine .atom hg ?_ hg'
      rcases ht with ht | ht
      · exact .inl (ht ▸ hw)
      · exact .inr (ht ▸ hw)
  | group hl _ hr ih =>
    simp only [List.cons_append] at hs
    obtain ⟨g, _, rfl, hg, hwl, hs⟩ := hs.of_cons
    obtain ⟨as, _, rfl, hts, hs⟩ := hs.of_append
    obtain ⟨g', g'', rfl, hg', hg'', hwr⟩ := hs.singleton
    rw [hl] at hwl
    rw [hr] at hwr
    change _ = ['('] at hwl
    change _ = [')'] at hwr
    have := Formula.Written.group hg ((ih hf hts).gaps .nil hg') hg''
    simpa [hwl, hwr] using this
  | joined hl _ ho _ hr ihl ihr =>
    simp only [List.cons_append, List.append_assoc] at hs
    obtain ⟨g, _, rfl, hg, hwl, hs⟩ := hs.of_cons
    obtain ⟨as, _, rfl, hts, hs⟩ := hs.of_append
    obtain ⟨g', _, rfl, hg', _, hs⟩ := hs.of_cons
    obtain ⟨bs, _, rfl, hus, hs⟩ := hs.of_append
    obtain ⟨g₁, g₂, rfl, hg₁, hg₂, hwr⟩ := hs.singleton
    rw [hl] at hwl
    rw [hr] at hwr
    change _ = ['('] at hwl
    change _ = [')'] at hwr
    cases f with
    | atom => cases hf
    | binary left op right =>
      obtain ⟨hl, hop, hr⟩ := Draft.joined.inj hf
      have : Formula.Written (.binary left op right) _ :=
        .binary hg ((ihl hl hts).gaps .nil hg') ((ihr hr hus).gaps .nil hg₁) hg₂
      rw [hop] at this
      simpa [hwl, hwr] using this

/-! ### Reading back -/

namespace Formula

theorem parse_eq_ok_iff {text : String} {f : Formula} :
    parse text = .ok f ↔ f.Written text.toList := by
  rw [parse, Reader.run_eq_ok_iff]
  constructor
  · rintro ⟨h, H⟩
    exact H.written rfl (Lexing.segments h)
  · intro H
    obtain ⟨ts, hts, h⟩ := H.ofChars 0 EndsNames.nil
    have h : Lexing.ofText text = ⟨ts, none⟩ := by simpa [Lexing.ofText, Lexing.after] using h
    rw [h]
    exact ⟨rfl, hts⟩

theorem read_eq_ok_iff {text : String} {f : Formula} {l : Logger} :
    (read text).value l = .ok f ↔ f.Written text.toList := by
  rw [value_read, parse_eq_ok_iff]

/-- The texts of a formula are exactly those that are read as it, so a text has one formula at
most. -/
theorem read_eq_ok_iff_written (text : String) (l : Logger) :
    (∀ f, (read text).value l = .ok f ↔ f.Written text.toList) ∧
      ∀ f g, Written f text.toList → Written g text.toList → f = g := by
  refine ⟨fun f => read_eq_ok_iff, fun f g hf hg => ?_⟩
  have h := parse_eq_ok_iff.mpr hf
  rw [parse_eq_ok_iff.mpr hg] at h
  exact (Except.ok.inj h).symm

theorem read_eq_ok_iff_written_grouped :
    (read "( (x)+y )").value .initial = .ok (.binary (.atom "x") .plus (.atom "y")) := by
  have hx : IsAtomName "x" := .inl ⟨'x', [], rfl, by decide, nofun⟩
  have hy : IsAtomName "y" := .inl ⟨'y', [], rfl, by decide, nofun⟩
  have hgroup : Written (.atom "x") (' ' :: "(x)".toList) :=
    .group .space (.atom .nil hx .nil) .nil
  have : Written (.binary (.atom "x") .plus (.atom "y")) "( (x)+y )".toList :=
    .binary .nil hgroup (.atom .nil hy .space) .nil
  exact ((read_eq_ok_iff_written _ _).1 _).mpr this

theorem parse_render {f : Formula} (hf : f.Readable) : parse f.render = .ok f :=
  parse_eq_ok_iff.mpr hf.written

/-- A formula with readable names reads back from its canonical text. -/
theorem read_render {f : Formula} (hf : f.Readable) (l : Logger) :
    (read f.render).value l = .ok f :=
  read_eq_ok_iff.mpr hf.written

theorem read_render_nested :
    let f := binary (binary (atom "_x1") .implicative (atom "٣4")) .notEquals
      (binary (atom "a") .lessOrEquals (atom "b"))
    f.Readable ∧ (read "((_x1 -> ٣4) <> (a <= b))").value .initial = .ok f := by
  intro f
  have hname : IsAtomName "_x1" := .inl
    ⟨'_', ['x', '1'], rfl, by decide, List.all_eq_true.mp (by decide)⟩
  have hnumber : IsAtomName "٣4" := .inr ⟨by decide, List.all_eq_true.mp (by decide)⟩
  have hf : f.Readable :=
    ⟨⟨hname, hnumber⟩, .inl ⟨'a', [], rfl, by decide, nofun⟩, .inl ⟨'b', [], rfl, by decide, nofun⟩⟩
  have htext : f.render = "((_x1 -> ٣4) <> (a <= b))" := by decide
  exact ⟨hf, htext ▸ read_render hf .initial⟩

end Formula

end Formulary
