import Formulary.Grammar

/-!
# Beginnings of phrases

What may follow the first tokens of a phrase depends on no more than their progress: whether an
operand is complete, and which groups are open, each before or after its operator. Tokens that
have come to a standstill do not begin a phrase (`Token.Viable.progress`).
-/

namespace Formulary.Token

/-- The tokens begin a phrase. -/
def Viable (ts : List Token) : Prop := ∃ us, Phrase (ts ++ us)

theorem Phrase.viable (H : Phrase ts) : Viable ts := ⟨[], by simpa⟩

theorem Viable.of_append (H : Viable (ts ++ us)) : Viable ts := by
  obtain ⟨vs, H⟩ := H
  exact ⟨us ++ vs, by simpa using H⟩

/-- The closing parenthesis `t` after `ts` ends a group with this operator directly inside it. -/
def Closes (ts : List Token) (t : Token) (s : String) : Prop :=
  t.kind = .rightParen ∧ (openGroups ts).head? = some (some s)

structure Progress where
  /-- An operand has just ended. -/
  complete : Bool
  /-- The open groups as in `openGroups`. -/
  groups : List (Option String)

namespace Progress

def initial : Progress := ⟨false, []⟩

/-- The progress after one more token, if it may come next. -/
def next? (p : Progress) (t : Token) : Option Progress :=
  match p.complete, t.kind, p.groups with
  | false, .leftParen, gs => some ⟨false, none :: gs⟩
  | false, .identifier, gs | false, .number, gs => some ⟨true, gs⟩
  | true, .operator, none :: gs => some ⟨false, some t.text :: gs⟩
  | true, .rightParen, _ :: gs => some ⟨true, gs⟩
  | _, _, _ => none

theorem groups_of_next? {p q : Progress} (h : p.next? t = some q) :
    q.groups = nextGroups p.groups t := by
  obtain ⟨c, gs⟩ := p
  unfold next? at h
  unfold nextGroups
  grind

theorem groups_of_foldlM {p q : Progress} {ts : List Token} (h : ts.foldlM next? p = some q) :
    q.groups = ts.foldl nextGroups p.groups := by
  induction ts generalizing p with
  | nil => cases h; rfl
  | cons t ts ih =>
    rw [List.foldlM_cons, Option.bind_eq_bind, Option.bind_eq_some_iff] at h
    obtain ⟨p', hp, h⟩ := h
    rw [ih h, groups_of_next? hp, List.foldl_cons]

/-- The progress of some tokens from the beginning. -/
def of? (ts : List Token) : Option Progress := ts.foldlM next? initial

theorem of?_append (ts us : List Token) : of? (ts ++ us) = (of? ts).bind (us.foldlM next?) := by
  simp [of?, List.foldlM_append]

theorem groups_of? {p : Progress} (h : of? ts = some p) : p.groups = openGroups ts :=
  groups_of_foldlM h

end Progress

/-- A phrase completes an operand and leaves the groups around it as they were. -/
theorem Phrase.progress (H : Phrase ts) (gs : List (Option String)) :
    ts.foldlM Progress.next? ⟨false, gs⟩ = some ⟨true, gs⟩ := by
  induction H generalizing gs with
  | atom h => rcases h with h | h <;> simp [Progress.next?, h]
  | group hl _ hr ih => simp [List.foldlM_append, Progress.next?, hl, hr, ih]
  | binary hl _ ho _ hr ihl ihr =>
    simp [List.foldlM_append, Progress.next?, hl, ho, hr, ihl, ihr]

theorem Viable.progress (H : Viable ts) : ∃ p, Progress.of? ts = some p := by
  obtain ⟨us, H⟩ := H
  have h := H.progress []
  rw [← Progress.initial, ← Progress.of?, Progress.of?_append, Option.bind_eq_some_iff] at h
  exact h.imp fun p h => h.1

end Formulary.Token
