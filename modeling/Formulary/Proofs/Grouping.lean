import Formulary.Proofs.Layout
import Formulary.Proofs.Rendering
import Formulary.Proofs.Written

/-!
# Redundant parentheses

A pair of parentheses is redundant if no operator stands directly between them, that is, outside the
groups inside it. Whether it is can be seen from its tokens alone: going from one parenthesis to the
other one passes over whole phrases (`Draft.Spelled.redundant_append`). Without its redundant pairs a
text has the tokens of the canonical text of its formula (`Draft.Spelled.ungroup`,
`Formula.Readable.lexing_render_eq`), and these tell the formula, so nothing but redundant pairs can
set two texts of one formula apart (`Formula.tokens_render_eq_ungroup`).
-/

namespace Formulary

namespace Token

/-- A parenthesis that stands before these tokens has its match among them, and no operator stands
between the two outside the groups inside. On the way `opening` opens groups and `closing` closes
them; `depth` are open. -/
def redundant (opening closing : Kind) : Nat → List Token → Bool
  | _, [] => false
  | depth, t :: ts =>
    if t.kind = opening then redundant opening closing (depth + 1) ts
    else if t.kind = closing then depth = 0 || redundant opening closing (depth - 1) ts
    else (depth ≠ 0 || t.kind ≠ .operator) && redundant opening closing depth ts

/-- The token is a parenthesis of a redundant pair. The tokens before it are given backwards. -/
def isRedundant (before : List Token) (t : Token) (after : List Token) : Bool :=
  match t.kind with
  | .leftParen => redundant .leftParen .rightParen 0 after
  | .rightParen => redundant .rightParen .leftParen 0 before
  | .operator | .identifier | .number => false

/-- The tokens without redundant pairs, where other tokens stand before them. -/
def ungroupAfter (before : List Token) : List Token → List Token
  | [] => []
  | t :: ts =>
    if isRedundant before t ts then ungroupAfter (t :: before) ts
    else t :: ungroupAfter (t :: before) ts

/-- The tokens without redundant pairs of parentheses. -/
def ungroup (ts : List Token) : List Token := ungroupAfter [] ts

end Token
open Token

/-! ### Passing over phrases -/

/-- A phrase is passed over, forwards and backwards. -/
theorem Draft.Spelled.redundant_append {d : Draft} (H : d.Spelled ts) (depth : Nat)
    (rest : List Token) :
    redundant .leftParen .rightParen depth (ts ++ rest) =
        redundant .leftParen .rightParen depth rest ∧
      redundant .rightParen .leftParen depth (ts.reverse ++ rest) =
        redundant .rightParen .leftParen depth rest := by
  induction H generalizing depth rest with
  | atom ht => rcases ht with ht | ht <;> simp [redundant, ht]
  | group hl _ hr ih => simp [redundant, hl, hr, ih]
  | joined hl _ ho _ hr ihl ihr => simp [redundant, hl, ho, hr, ihl, ihr]

/-! ### The tokens of canonical texts -/

/-- The kind of a token with this text. -/
def Token.Kind.ofText (s : String) : Kind :=
  (s.toList.head?.bind ofFirst?).getD .identifier

theorem Token.Kind.ofText_eq {k : Kind} {s : String} (hs : k.Matches s.toList) : ofText s = k := by
  rw [ofText]
  cases hw : s.toList with
  | nil => exact absurd (hw ▸ hs) Kind.not_matches_nil
  | cons c w =>
    rw [hw] at hs
    rw [List.head?_cons, Option.bind_some, Kind.ofFirst?_eq_some_iff.mpr (Kind.matches_cons.mp hs).1,
      Option.getD_some]

/-- The tokens of the canonical text, each as at the front of a text. -/
def Formula.tokens : Formula → List Token
  | atom name => [⟨.ofText name, name, 0⟩]
  | binary left op right =>
    ⟨.leftParen, "(", 0⟩ :: left.tokens ++ ⟨.operator, op.symbol, 0⟩ :: right.tokens ++
      [⟨.rightParen, ")", 0⟩]

namespace Formula
open Lexing

theorem Readable.unplaced_ofChars_render {f : Formula} (hf : f.Readable) (hrest : EndsNames rest)
    (pos pos' : Nat) : (Lexing.ofChars pos (f.render.toList ++ rest)).unplaced =
      after f.tokens (Lexing.ofChars pos' rest).unplaced := by
  induction f generalizing rest pos pos' with
  | atom name =>
    obtain ⟨k, -, hname, hend⟩ := hf.exists_kind hrest
    rw [render_atom, ofChars_text hname hend, unplaced_after, unplaced_ofChars _ pos', tokens,
      Kind.ofText_eq hname]
    rfl
  | binary left op right ihl ihr =>
    have hspace : isIgnored ' ' := by decide
    have hop := op.matches_symbol
    have hendl (cs : List Char) : EndsNames (' ' :: (op.symbol.toList ++ cs)) :=
      .gap .space (.operator hop)
    rw [toList_render_binary, ofChars_leftParen, unplaced_after, ihl hf.1 (hendl _) _ 0,
      ofChars_cons_ignored hspace, ofChars_text hop (Kind.endsBefore_ignored hspace), unplaced_after,
      ofChars_cons_ignored hspace, ihr hf.2 .rightParen _ 0, ofChars_rightParen, unplaced_after,
      unplaced_ofChars _ pos', tokens]
    simp [Token.unplaced]

theorem Readable.lexing_render_eq {f : Formula} (hf : f.Readable) :
    (Lexing.ofText f.render).unplaced = ⟨f.tokens, none⟩ := by
  have h := hf.unplaced_ofChars_render .nil 0 0
  simpa [Lexing.ofText, after, Lexing.unplaced] using h

end Formula

/-! ### Taking redundant pairs away -/

namespace Token
variable {before ts : List Token} {t : Token}

theorem ungroupAfter_of_redundant (h : isRedundant before t ts = true) :
    ungroupAfter before (t :: ts) = ungroupAfter (t :: before) ts := by
  rw [ungroupAfter, if_pos h]

theorem ungroupAfter_of_not_redundant (h : isRedundant before t ts = false) :
    ungroupAfter before (t :: ts) = t :: ungroupAfter (t :: before) ts := by
  rw [ungroupAfter, if_neg (Bool.eq_false_iff.mp h)]

/-- A token of a kind that has a single text. -/
theorem unplaced_eq {k : Kind} {s : String} (hk : t.kind = k) (ht : t.kind.Matches t.text.toList)
    (hs : ∀ w, k.Matches w → w = s.toList) : t.unplaced = ⟨k, s, 0⟩ := by
  rw [hk] at ht
  have htext : t.text = s := String.toList_inj.mp (hs _ ht)
  rw [unplaced, hk, htext]

end Token

theorem Draft.Spelled.ungroupAfter {d : Draft} (H : d.Spelled ts) {f : Formula} (hf : f.draft = d)
    (hts : ∀ t ∈ ts, t.kind.Matches t.text.toList) (before rest : List Token) :
    (Token.ungroupAfter before (ts ++ rest)).map Token.unplaced =
      f.tokens ++ (Token.ungroupAfter (ts.reverse ++ before) rest).map Token.unplaced := by
  induction H generalizing f before rest with
  | @atom t ht =>
    cases f with
    | binary => cases hf
    | atom name =>
      cases hf
      have hkept : isRedundant before t rest = false := by
        rcases ht with ht | ht <;> rw [isRedundant, ht]
      have hkind := Kind.ofText_eq (hts t List.mem_cons_self)
      rw [List.singleton_append, ungroupAfter_of_not_redundant hkept, Formula.tokens, hkind]
      rfl
  | @group d ts l r hl H hr ih =>
    have hdropl : isRedundant before l (ts ++ r :: rest) = true := by
      rw [isRedundant, hl, (H.redundant_append 0 _).1]
      simp [redundant, hr]
    have hdropr : isRedundant (ts.reverse ++ l :: before) r rest = true := by
      rw [isRedundant, hr, (H.redundant_append 0 _).2]
      simp [redundant, hl]
    have hinner := ih hf (fun t ht => hts t (by simp [ht])) (l :: before) (r :: rest)
    rw [ungroupAfter_of_redundant hdropr] at hinner
    simpa [ungroupAfter_of_redundant hdropl] using hinner
  | @joined left ts right us l o r hl Hl ho Hr hr ihl ihr =>
    cases f with
    | atom => cases hf
    | binary left op right =>
      obtain ⟨hleft, hop, hright⟩ := Draft.joined.inj hf
      have hkeepl : isRedundant before l (ts ++ o :: (us ++ r :: rest)) = false := by
        rw [isRedundant, hl, (Hl.redundant_append 0 _).1]
        simp [redundant, ho]
      have hkeepo : isRedundant (ts.reverse ++ l :: before) o (us ++ r :: rest) = false := by
        rw [isRedundant, ho]
      have hkeepr : isRedundant (us.reverse ++ o :: (ts.reverse ++ l :: before)) r rest = false := by
        rw [isRedundant, hr, (Hr.redundant_append 0 _).2]
        simp [redundant, ho]
      have hl' : l.unplaced = ⟨.leftParen, "(", 0⟩ := unplaced_eq hl (hts l (by simp)) fun _ h => h
      have hr' : r.unplaced = ⟨.rightParen, ")", 0⟩ := unplaced_eq hr (hts r (by simp)) fun _ h => h
      have ho' : o.unplaced = ⟨.operator, op.symbol, 0⟩ := by rw [Token.unplaced, ho, hop]
      have hts' : ∀ t ∈ ts, t.kind.Matches t.text.toList := fun t ht => hts t (by simp [ht])
      have hus' : ∀ t ∈ us, t.kind.Matches t.text.toList := fun t ht => hts t (by simp [ht])
      calc (Token.ungroupAfter before (l :: ts ++ o :: us ++ [r] ++ rest)).map Token.unplaced
        _ = l.unplaced :: (Token.ungroupAfter (l :: before)
              (ts ++ o :: (us ++ r :: rest))).map Token.unplaced := by
          simp [ungroupAfter_of_not_redundant hkeepl]
        _ = l.unplaced :: (left.tokens ++ o.unplaced :: (Token.ungroupAfter
              (o :: (ts.reverse ++ l :: before)) (us ++ r :: rest)).map Token.unplaced) := by
          rw [ihl hleft hts', ungroupAfter_of_not_redundant hkeepo, List.map_cons]
        _ = l.unplaced :: (left.tokens ++ o.unplaced :: (right.tokens ++ r.unplaced ::
              (Token.ungroupAfter (r :: (us.reverse ++ o :: (ts.reverse ++ l :: before)))
                rest).map Token.unplaced)) := by
          rw [ihr hright hus', ungroupAfter_of_not_redundant hkeepr, List.map_cons]
        _ = _ := by simp [hl', ho', hr', Formula.tokens]

/-- Without redundant pairs the tokens are those of the canonical text. -/
theorem Draft.Spelled.ungroup {f : Formula} (H : f.draft.Spelled ts)
    (hts : ∀ t ∈ ts, t.kind.Matches t.text.toList) :
    (Token.ungroup ts).map Token.unplaced = f.tokens := by
  have h := H.ungroupAfter rfl hts [] []
  simpa [Token.ungroup, Token.ungroupAfter] using h

namespace Formula

theorem map_ungroup_of_parse {text : String} {f : Formula} (h : parse text = .ok f) :
    (ungroup (Lexing.ofText text).tokens).map Token.unplaced = f.tokens := by
  obtain ⟨hforeign, H⟩ := Reader.run_eq_ok_iff.mp h
  exact H.ungroup (Lexing.segments hforeign).matches_of_mem

/-- The tokens of a canonical text are read as its formula. -/
theorem Readable.run_tokens {f : Formula} (hf : f.Readable) :
    Reader.run ⟨f.tokens, none⟩ = .ok f := by
  rw [← hf.lexing_render_eq, Reader.run_unplaced, mapError_eq_ok_iff]
  exact parse_render hf

theorem Readable.tokens_inj {f g : Formula} (hf : f.Readable) (hg : g.Readable) :
    f.tokens = g.tokens ↔ f = g := by
  refine ⟨fun h => ?_, fun h => h ▸ rfl⟩
  have hrun := hf.run_tokens
  rw [h, hg.run_tokens] at hrun
  exact (Except.ok.inj hrun).symm

/-- The canonical text of what is read from a text has the tokens of the text but for its redundant
pairs of parentheses. So two texts have the same formula if and only if their tokens are the same
but for such pairs, and a canonical text stays as it is. -/
theorem tokens_render_eq_ungroup {text : String} {f : Formula} {l : Logger}
    (h : (read text).value l = .ok f) :
    f.Readable ∧ (Lexing.ofText f.render).foreign? = none ∧
      (Lexing.ofText f.render).tokens.map Token.unplaced =
        (ungroup (Lexing.ofText text).tokens).map Token.unplaced ∧
      (∀ text' g, (read text').value l = .ok g →
        (f = g ↔ (ungroup (Lexing.ofText text).tokens).map Token.unplaced =
          (ungroup (Lexing.ofText text').tokens).map Token.unplaced)) ∧
      ∃ g, (read f.render).value l = .ok g ∧ g.render = f.render := by
  simp only [value_read] at h ⊢
  have hf : f.Readable := (parse_eq_ok_iff.mp h).readable
  have hrender := hf.lexing_render_eq
  refine ⟨hf, ?_, ?_, fun text' g h' => ?_, f, parse_render hf, rfl⟩
  · exact Option.map_eq_none_iff.mp (congrArg Lexing.foreign? hrender)
  · rw [map_ungroup_of_parse h]
    exact congrArg Lexing.tokens hrender
  · have hg : g.Readable := (parse_eq_ok_iff.mp h').readable
    rw [map_ungroup_of_parse h, map_ungroup_of_parse h', hf.tokens_inj hg]

theorem tokens_render_eq_ungroup_nested :
    let f := binary (atom "x") .plus (binary (atom "y") .multiplication (atom "1"))
    (read "(( ((x))+((y * (1))) ))").value .initial = .ok f ∧
      (Lexing.ofText f.render).tokens.map Token.unplaced =
        (ungroup (Lexing.ofText "(( ((x))+((y * (1))) ))").tokens).map Token.unplaced := by
  intro f
  have hx : IsAtomName "x" := .inl ⟨'x', [], rfl, by decide, nofun⟩
  have hy : IsAtomName "y" := .inl ⟨'y', [], rfl, by decide, nofun⟩
  have hone : IsAtomName "1" := .inr ⟨by decide, List.all_eq_true.mp (by decide)⟩
  have hleft : Written (.atom "x") (' ' :: "((x))".toList) :=
    .group .space (.group .nil (.atom .nil hx .nil) .nil) .nil
  have hright : Written (.binary (.atom "y") .multiplication (.atom "1")) "((y * (1))) ".toList :=
    .group .nil (.binary .nil (.atom .nil hy .space) (.group .space (.atom .nil hone .nil) .nil) .nil)
      .space
  have h : (read "(( ((x))+((y * (1))) ))").value .initial = .ok f :=
    read_eq_ok_iff.mpr (.group .nil (.binary .nil hleft hright .nil) .nil)
  exact ⟨h, (tokens_render_eq_ungroup h).2.2.1⟩

end Formula

end Formulary
