import Formulary.Proofs.Grouping
import Formulary.Proofs.RunningSums
import Formulary.Proofs.Traversals

/-!
# The analyses in the tokens of a text

What an analysis finds in a formula can be counted on the tokens of any of its texts: the names and
the operators are its tokens but for the parentheses, and no formula is deeper than its parentheses
are nested (`Draft.Spelled.account`). Redundant pairs nest without making a formula deeper; in a
canonical text there are none, and there the two agree (`Formula.Readable.nesting_tokens`). Together
these are `Formula.analyses_eq_token_counts`.
-/

namespace Formulary

namespace Token

/-- The token is the name of an atom. -/
def isName (t : Token) : Bool := t.kind = .identifier || t.kind = .number

def isParen (t : Token) : Bool := t.kind = .leftParen || t.kind = .rightParen

/-- How many more groups are open after the token than before it. -/
def opening (t : Token) : Int :=
  if t.kind = .leftParen then 1 else if t.kind = .rightParen then -1 else 0

/-- How deep the parentheses are nested. -/
def nesting (ts : List Token) : Int := peak opening ts

theorem opening_leftParen {t : Token} (ht : t.kind = .leftParen) : t.opening = 1 := by
  simp [opening, ht]

theorem opening_rightParen {t : Token} (ht : t.kind = .rightParen) : t.opening = -1 := by
  simp [opening, ht]

theorem opening_of_not_isParen {t : Token} (ht : t.isParen = false) : t.opening = 0 := by
  simp only [isParen, Bool.or_eq_false_iff, decide_eq_false_iff_not] at ht
  rw [opening, if_neg ht.1, if_neg ht.2]

end Token
open Token

/-! ### The tokens of a formula -/

/-- The tokens `ts` tell all that the analyses find in `f`, but for the depth, which is no greater
than the tokens show. -/
structure Token.Account (ts : List Token) (f : Formula) : Prop where
  names : (ts.filter isName).map Token.text = f.names
  operators : ∀ op : Operator,
    ts.countP (fun t => t.kind = .operator ∧ t.text = op.symbol) = f.operators.count op
  size : ts.countP (fun t => !t.isParen) = f.names.length + f.operators.length
  nested : ∃ n, f.depth ≤ n ∧ Nested opening ts n

namespace Token.Account
variable {l r o : Token} {f g : Formula}

theorem atom {t : Token} (ht : t.kind = .identifier ∨ t.kind = .number) :
    Account [t] (.atom t.text) := by
  have hparen : t.isParen = false := by rcases ht with ht | ht <;> simp [isParen, ht]
  refine ⟨?_, fun op => ?_, ?_, 0, Nat.le_refl 0, .cons (opening_of_not_isParen hparen) .nil⟩
  all_goals
    rcases ht with ht | ht <;> simp [isName, isParen, ht, Formula.names, Formula.operators]

theorem group (hl : l.kind = .leftParen) (H : Account ts f) (hr : r.kind = .rightParen) :
    Account (l :: ts ++ [r]) f where
  names := by simpa [isName, hl, hr] using H.names
  operators op := by simpa [hl, hr] using H.operators op
  size := by
    have hl' : l.isParen = true := by simp [isParen, hl]
    have hr' : r.isParen = true := by simp [isParen, hr]
    simpa [hl', hr'] using H.size
  nested := by
    obtain ⟨n, hle, hn⟩ := H.nested
    exact ⟨n + 1, Nat.le_succ_of_le hle, hn.group (opening_leftParen hl) (opening_rightParen hr)⟩

theorem binary {op : Operator} (hl : l.kind = .leftParen) (H : Account ts f)
    (ho : o.kind = .operator) (hop : op.symbol = o.text) (H' : Account us g)
    (hr : r.kind = .rightParen) : Account (l :: ts ++ o :: us ++ [r]) (.binary f op g) where
  names := by simp [isName, hl, ho, hr, Formula.names, ← H.names, ← H'.names]
  operators op' := by
    have hsymbol : o.text = op'.symbol ↔ op = op' := by
      rw [← hop]
      exact ⟨Operator.symbol_injective, congrArg _⟩
    simp only [Formula.operators, List.count_append, ← H.operators, ← H'.operators]
    simp [List.countP_cons, hl, ho, hr, hsymbol, List.count_singleton]
    omega
  size := by
    have hl' : l.isParen = true := by simp [isParen, hl]
    have ho' : o.isParen = false := by simp [isParen, ho]
    have hr' : r.isParen = true := by simp [isParen, hr]
    simp only [Formula.names, Formula.operators, List.length_append, List.length_singleton]
    simp [hl', ho', hr', H.size, H'.size]
    omega
  nested := by
    have ho : o.opening = 0 := opening_of_not_isParen (by simp [isParen, ho])
    obtain ⟨m, hle, hm⟩ := H.nested
    obtain ⟨n, hle', hn⟩ := H'.nested
    refine ⟨max m n + 1, ?_,
      (hm.append (hn.cons ho)).group (opening_leftParen hl) (opening_rightParen hr)⟩
    rw [Formula.depth_binary]
    omega

theorem deep (H : Account ts f) : f.depth ≤ nesting ts := by
  obtain ⟨n, hle, hn⟩ := H.nested
  rw [nesting, hn.deepest]
  exact Int.ofNat_le.mpr hle

end Token.Account

/-- The tokens of a formula, redundant parentheses included, tell of it what they should. -/
theorem Draft.Spelled.account {d : Draft} (H : d.Spelled ts) {f : Formula} (hf : f.draft = d) :
    Account ts f := by
  induction H generalizing f with
  | atom ht =>
    cases f with
    | binary => cases hf
    | atom name => cases hf; exact .atom ht
  | group hl _ hr ih => exact .group hl (ih hf) hr
  | joined hl _ ho _ hr ihl ihr =>
    cases f with
    | atom => cases hf
    | binary left op right =>
      obtain ⟨hleft, hop, hright⟩ := Draft.joined.inj hf
      exact .binary hl (ihl hleft) ho hop (ihr hright) hr

/-- The parentheses of a canonical text are nested as deep as its formula is. -/
theorem Formula.Readable.nesting_tokens {f : Formula} (hf : f.Readable) :
    Nested opening f.tokens f.depth := by
  induction f with
  | atom name =>
    obtain ⟨k, hk, hname, -⟩ := IsAtomName.exists_kind hf EndsNames.nil
    refine .cons (opening_of_not_isParen ?_) .nil
    rw [isParen, Kind.ofText_eq hname]
    rcases hk with rfl | rfl <;> rfl
  | binary left op right ihl ihr =>
    have ho : opening ⟨.operator, op.symbol, 0⟩ = 0 := rfl
    rw [depth_binary, Nat.add_comm]
    exact ((ihl hf.1).append ((ihr hf.2).cons ho)).group rfl rfl

namespace Formula

/-- What the analyses find in a formula, counted on the tokens of a text that is read as it. -/
theorem analyses_eq_token_counts {text : String} {f : Formula} {l : Logger}
    (h : (read text).value l = .ok f) :
    let ts := (Lexing.ofText text).tokens
    f.atoms = ((ts.filter isName).map Token.text).eraseDups ∧
      (∀ op, f.counts.count op =
        ts.countP fun t => t.kind = .operator ∧ t.text = op.symbol) ∧
      f.outline.length = ts.countP (fun t => !t.isParen) ∧
      f.depth ≤ nesting ts ∧ (ungroup ts = ts → f.depth = nesting ts) := by
  intro ts
  rw [value_read] at h
  obtain ⟨-, H⟩ := Reader.run_eq_ok_iff.mp h
  have H := H.account rfl
  refine ⟨?_, fun op => ?_, ?_, H.deep, fun hungroup => ?_⟩
  · rw [atoms_eq, H.names]
  · rw [counts_eq, Tally.count_ofList, H.operators]
  · rw [outline_eq, List.length_map, length_levelled, H.size]
  · have htokens := map_ungroup_of_parse h
    rw [hungroup] at htokens
    have hf : f.Readable := (parse_eq_ok_iff.mp h).readable
    rw [← hf.nesting_tokens.2, ← htokens, nesting, peak_map]
    rfl

theorem analyses_eq_token_counts_repeated :
    let f := binary (binary (atom "x") .plus (atom "y")) .multiplication (atom "x")
    let ts := (Lexing.ofText "((x + y)*x)").tokens
    (read "((x + y)*x)").value .initial = .ok f ∧ ungroup ts = ts ∧ f.atoms = ["x", "y"] ∧
      f.counts.count .plus = 1 ∧ f.outline.length = 5 ∧ f.depth = nesting ts := by
  intro f ts
  have hx : IsAtomName "x" := .inl ⟨'x', [], rfl, by decide, nofun⟩
  have hy : IsAtomName "y" := .inl ⟨'y', [], rfl, by decide, nofun⟩
  have hsum : Written (.binary (.atom "x") .plus (.atom "y")) "(x + y)".toList :=
    .binary .nil (.atom .nil hx .space) (.atom .space hy .nil) .nil
  have h : (read "((x + y)*x)").value .initial = .ok f :=
    read_eq_ok_iff.mpr (.binary .nil hsum (.atom .nil hx .nil) .nil)
  have hts : ts = [⟨.leftParen, "(", 0⟩, ⟨.leftParen, "(", 1⟩, ⟨.identifier, "x", 2⟩,
      ⟨.operator, "+", 4⟩, ⟨.identifier, "y", 6⟩, ⟨.rightParen, ")", 7⟩, ⟨.operator, "*", 8⟩,
      ⟨.identifier, "x", 9⟩, ⟨.rightParen, ")", 10⟩] := by
    decide +kernel
  have hungroup : ungroup ts = ts := by
    rw [hts]
    decide
  obtain ⟨hatoms, hcounts, houtline, -, hdepth⟩ := analyses_eq_token_counts h
  refine ⟨h, hungroup, hatoms.trans ?_, (hcounts .plus).trans ?_, houtline.trans ?_,
    hdepth hungroup⟩
  · change ((ts.filter isName).map Token.text).eraseDups = _
    rw [hts]
    decide
  · change ts.countP _ = _
    rw [hts]
    decide
  · change ts.countP _ = _
    rw [hts]
    decide

end Formula

end Formulary
