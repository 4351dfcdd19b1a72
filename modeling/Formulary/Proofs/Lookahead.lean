import Formulary.Proofs.Foreign

/-!
# What decides a failure

Reading that fails at a token has looked at nothing after it (`Reader.FailsAt`), and the characters
up to the end of the token have the tokens up to it (`Lexing.exists_append_of_tokens`). So the
failure is the same in front of any other text, if only the token is kept from going on there, and
so it is with a failure at a foreign character (`Formula.failure_decided_by_lookahead`).
-/

namespace Formulary

/-- The first `n` characters of a text. -/
def Text.firstChars (n : Nat) (text : String) : String := String.ofList (text.toList.take n)

@[simp] theorem Text.toList_firstChars (n : Nat) (text : String) :
    (firstChars n text).toList = text.toList.take n := String.toList_ofList

namespace Token

theorem Kind.EndsBefore.of_append {k : Kind} {cs ds : List Char} (h : k.EndsBefore (cs ++ ds)) :
    k.EndsBefore cs := by
  cases cs with
  | nil => exact endsBefore_nil
  | cons c cs => exact h

end Token

namespace Lexing
open Token

/-- The characters up to the end of a token have the tokens up to it. -/
theorem exists_append_of_tokens {pos : Nat} {cs : List Char}
    (h : (ofChars pos cs).tokens = us ++ t :: vs) :
    ∃ as bs, cs = as ++ bs ∧ t.stop = pos + as.length ∧ ofChars pos as = ⟨us ++ [t], none⟩ := by
  induction cs using text_induction generalizing pos us with
  | nil => simp at h
  | ignored c cs hc ih =>
    rw [ofChars_cons_ignored hc] at h
    obtain ⟨as, bs, rfl, hstop, has⟩ := ih h
    refine ⟨c :: as, bs, rfl, ?_, ?_⟩
    · rw [hstop, List.length_cons, Nat.add_right_comm, Nat.add_assoc]
    · rw [ofChars_cons_ignored hc, has]
  | foreign c cs hc hk => simp [ofChars_cons_foreign hc hk] at h
  | token k w cs hw hcs ih =>
    rw [ofChars_token hw hcs] at h
    cases us with
    | nil =>
      obtain ⟨rfl, -⟩ := List.cons.inj h
      refine ⟨w, cs, rfl, by simp [Token.stop], ?_⟩
      have hlexing := ofChars_token hw Kind.endsBefore_nil pos
      rwa [List.append_nil, ofChars_nil] at hlexing
    | cons u us =>
      obtain ⟨rfl, hrest⟩ := List.cons.inj h
      obtain ⟨as, bs, rfl, hstop, has⟩ := ih hrest
      refine ⟨w ++ as, bs, (List.append_assoc w as bs).symm, ?_, ?_⟩
      · rw [hstop, List.length_append, Nat.add_assoc]
      · rw [ofChars_token hw hcs.of_append, has]
        rfl

/-- Up to the end of a token and a gap after it, whatever follows, the tokens are the same. -/
theorem exists_tokens_firstChars {text : String} (h : (ofText text).tokens = us ++ t :: vs)
    (u : String) :
    ∃ ws, (ofText (Text.firstChars t.stop text ++ " " ++ u)).tokens = us ++ t :: ws := by
  obtain ⟨as, bs, htext, hstop, has⟩ := exists_append_of_tokens h
  have hfirst : text.toList.take t.stop = as := by
    rw [htext, hstop, Nat.zero_add, List.take_left]
  have hknown : ∀ c ∈ as, ¬ IsForeign c := foreign?_eq_none_iff.mp (congrArg foreign? has)
  have hgap (k : Kind) : k.EndsBefore (' ' :: u.toList) := Kind.endsBefore_ignored (by decide)
  have hlist : (Text.firstChars t.stop text ++ " " ++ u).toList = as ++ ' ' :: u.toList := by
    simp [hfirst]
  refine ⟨(ofChars as.length (' ' :: u.toList)).tokens, ?_⟩
  rw [ofText, hlist, ofChars_append hknown hgap, has]
  simp [after]

/-- Up to the first foreign character the lexing is the same whatever follows. -/
theorem ofText_firstChars_of_foreign {text : String} {c : Char} {p : Nat}
    (h : (ofText text).foreign? = some ⟨c, p⟩) (u : String) :
    ofText (Text.firstChars (p + 1) text ++ u) = ofText text := by
  obtain ⟨as, bs, htext, hp, hc, has⟩ := foreign?_eq_some_iff.mp h
  have hfirst : text.toList.take (p + 1) = as ++ [c] := by
    rw [htext, hp, List.append_cons, Nat.zero_add, List.take_left' (by simp)]
  have hlist : (Text.firstChars (p + 1) text ++ u).toList = as ++ c :: u.toList := by
    simp [hfirst]
  rw [ofText, ofText, hlist, htext, ofChars_foreign has hc, ofChars_foreign has hc]

end Lexing

namespace Reader
open Token

theorem FailsAt.firstChars {text : String} (H : FailsAt (Lexing.ofText text).tokens t e)
    (u : String) :
    FailsAt (Lexing.ofText (Text.firstChars t.stop text ++ " " ++ u)).tokens t e := by
  obtain ⟨us, vs, σ, hts, hσ, ht⟩ := H
  obtain ⟨ws, hws⟩ := Lexing.exists_tokens_firstChars hts u
  exact ⟨us, ws, σ, hws, hσ, ht⟩

end Reader

namespace Formula
open Token Reader

/-- An unknown operator is found at the token after its group, or at the end. -/
theorem failsAt_of_unknownOperator {text : String} (h : parse text = .error (.unknownOperator s)) :
    let L := Lexing.ofText text
    ∃ us r vs, L.tokens = us ++ r :: vs ∧ Closes us r s ∧ (vs = [] ∧ L.foreign? = none ∨
      ∃ t ws, vs = t :: ws ∧ FailsAt L.tokens t (.unknownOperator s)) := by
  intro L
  obtain ⟨us, r, vs, hts, ⟨σ, H⟩, hr, hn, hend | ⟨t, ws, rfl, ht⟩⟩ := exists_closes_of_parse h
  · exact ⟨us, r, vs, hts, hr, .inl hend⟩
  · have hs : σ.closed? = some s := H.closed?_eq_some_iff.mpr hr
    have htokens : L.tokens = (us ++ [r]) ++ t :: ws := hts.trans (List.append_cons us r (t :: ws))
    refine ⟨us, r, t :: ws, hts, hr, .inr ⟨t, ws, rfl, us ++ [r], ws, σ, htokens, ?_, ?_⟩⟩
    · exact foldlM_eq_ok_iff.mpr H
    · exact State.step_of_closed hs hn ht

/-- A failure at a token is the same whatever follows this token and a gap, and so is one at a
foreign character whatever follows this. A syntax error has its own token; an unknown operator has
the token right after the group that it joins, unless the text ends there. -/
theorem failure_decided_by_lookahead (text u : String) (l : Logger) :
    let L := Lexing.ofText text
    (∀ t, (read text).value l = .error (.unexpected t) → FailsAt L.tokens t (.unexpected t) ∧
      (read (Text.firstChars t.stop text ++ " " ++ u)).value l = .error (.unexpected t)) ∧
    (∀ s t, FailsAt L.tokens t (.unknownOperator s) →
      (read text).value l = .error (.unknownOperator s) ∧
      (read (Text.firstChars t.stop text ++ " " ++ u)).value l = .error (.unknownOperator s)) ∧
    (∀ s, (read text).value l = .error (.unknownOperator s) →
      ∃ us r vs, L.tokens = us ++ r :: vs ∧ Closes us r s ∧ (vs = [] ∧ L.foreign? = none ∨
        ∃ t ws, vs = t :: ws ∧ FailsAt L.tokens t (.unknownOperator s))) ∧
    ∀ c p, (read text).value l = .error (.foreign ⟨c, p⟩) →
      (read (Text.firstChars (p + 1) text ++ u)).value l = .error (.foreign ⟨c, p⟩) := by
  intro L
  simp only [value_read]
  refine ⟨fun t h => ?_, fun s t H => ?_, fun s h => failsAt_of_unknownOperator h, fun c p h => ?_⟩
  · have H := failsAt_of_unexpected h
    exact ⟨H, (H.firstChars u).run_eq⟩
  · exact ⟨H.run_eq, (H.firstChars u).run_eq⟩
  · obtain ⟨-, hforeign⟩ := foreign_of_parse h
    rwa [parse, Lexing.ofText_firstChars_of_foreign hforeign]

theorem failure_decided_by_lookahead_kinds :
    let y : Token := ⟨.identifier, "y", 3⟩
    let o : Token := ⟨.operator, "+", 10⟩
    ((read "(x y)").value .initial = .error (.unexpected y) ∧
      (read "(x y )@(").value .initial = .error (.unexpected y)) ∧
    (FailsAt (Lexing.ofText "((x && y) + z)").tokens o (.unknownOperator "&&") ∧
      (read "((x && y) + z)").value .initial = .error (.unknownOperator "&&") ∧
      (read "((x && y) + )@(").value .initial = .error (.unknownOperator "&&")) ∧
    (read "(x @)").value .initial = .error (.foreign ⟨'@', 3⟩) ∧
      (read "(x @=> y").value .initial = .error (.foreign ⟨'@', 3⟩) := by
  intro y o
  let l : Token := ⟨.leftParen, "(", 0⟩
  let x : Token := ⟨.identifier, "x", 1⟩
  refine ⟨?_, ?_, ?_⟩
  · have htext : Text.firstChars y.stop "(x y)" ++ " " ++ ")@(" = "(x y )@(" := by decide
    have hlexing : Lexing.ofText "(x y)" = ⟨[l, x, y, ⟨.rightParen, ")", 4⟩], none⟩ := by
      decide +kernel
    have h : (read "(x y)").value .initial = .error (.unexpected y) := by
      rw [value_read, parse, hlexing]
      rfl
    rw [← htext]
    exact ⟨h, ((failure_decided_by_lookahead "(x y)" ")@(" .initial).1 y h).2⟩
  · have htext : Text.firstChars o.stop "((x && y) + z)" ++ " " ++ ")@(" = "((x && y) + )@(" := by
      decide
    let us : List Token := [l, ⟨.leftParen, "(", 1⟩, ⟨.identifier, "x", 2⟩, ⟨.operator, "&&", 4⟩,
      ⟨.identifier, "y", 7⟩, ⟨.rightParen, ")", 8⟩]
    let vs : List Token := [⟨.identifier, "z", 12⟩, ⟨.rightParen, ")", 13⟩]
    let σ : State := .holding (.joined (.atom "x") "&&" (.atom "y")) [.opened]
    have hlexing : Lexing.ofText "((x && y) + z)" = ⟨us ++ o :: vs, none⟩ := by decide +kernel
    have H : FailsAt (Lexing.ofText "((x && y) + z)").tokens o (.unknownOperator "&&") := by
      rw [hlexing]
      exact ⟨us, vs, σ, rfl, rfl, State.step_of_closed rfl (by decide) (.inl rfl)⟩
    rw [← htext]
    exact ⟨H, (failure_decided_by_lookahead "((x && y) + z)" ")@(" .initial).2.1 "&&" o H⟩
  · have htext : Text.firstChars 4 "(x @)" ++ "=> y" = "(x @=> y" := by decide
    have hlexing : Lexing.ofText "(x @)" = ⟨[l, x], some ⟨'@', 3⟩⟩ := by decide +kernel
    have h : (read "(x @)").value .initial = .error (.foreign ⟨'@', 3⟩) := by
      rw [value_read, parse, hlexing]
      rfl
    rw [← htext]
    exact ⟨h, (failure_decided_by_lookahead "(x @)" "=> y" .initial).2.2.2 '@' 3 h⟩

end Formula

end Formulary
