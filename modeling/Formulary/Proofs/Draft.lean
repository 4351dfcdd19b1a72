import Formulary.Grammar
import Formulary.Reader

/-!
# Drafts

A draft is a formula whose operators are still texts. Every phrase is one of a draft
(`Token.phrase_iff`), and a draft settles to a formula unless one of its symbols is unknown, in
which case the first one in postorder is to blame (`Draft.settle_eq_ok_iff`,
`Draft.settle_eq_error_iff`).
-/

namespace Formulary

/-! ### Computations that may fail -/

section
variable {x : Except ε α} {f : α → Except ε β}

@[simp] theorem ok_bind {a : α} : (Except.ok a >>= f) = f a := rfl

@[simp] theorem error_bind {e : ε} : (Except.error e >>= f) = .error e := rfl

theorem bind_eq_ok_iff {b : β} : (x >>= f) = .ok b ↔ ∃ a, x = .ok a ∧ f a = .ok b := by
  cases x <;> simp

theorem bind_eq_error_iff {e : ε} :
    (x >>= f) = .error e ↔ x = .error e ∨ ∃ a, x = .ok a ∧ f a = .error e := by
  cases x <;> simp

theorem mapError_bind {g : ε → ε'} :
    (x >>= f).mapError g = x.mapError g >>= fun a => (f a).mapError g := by
  cases x <;> rfl

theorem mapError_eq_ok_iff {g : ε → ε'} {a : α} : x.mapError g = .ok a ↔ x = .ok a := by
  cases x with
  | error e => exact ⟨nofun, nofun⟩
  | ok b => constructor <;> intro h <;> cases h <;> rfl

end

/-! ### Symbols -/

/-- Some operator has this symbol. -/
def Operator.IsSymbol (s : String) : Prop := ∃ op : Operator, op.symbol = s

theorem Operator.isSome_ofSymbol? {s : String} : (ofSymbol? s).isSome ↔ IsSymbol s := by
  simp only [Option.isSome_iff_exists, ofSymbol?_eq_some_iff, IsSymbol]

instance (s : String) : Decidable (Operator.IsSymbol s) :=
  decidable_of_iff _ Operator.isSome_ofSymbol?

open Operator (IsSymbol)

namespace Reader.Operand

theorem settle_joined_eq_ok_iff {left right f : Formula} {s : String} :
    (joined left s right).settle = .ok f ↔ ∃ op, op.symbol = s ∧ f = .binary left op right := by
  simp only [settle, ← Operator.ofSymbol?_eq_some_iff]
  cases Operator.ofSymbol? s <;> simp [eq_comm]

theorem settle_joined_eq_error_iff {left right : Formula} {s : String} {e : ReadError} :
    (joined left s right).settle = .error e ↔ ¬ IsSymbol s ∧ e = .unknownOperator s := by
  rw [← Operator.isSome_ofSymbol?, settle]
  cases Operator.ofSymbol? s <;> simp [eq_comm]

end Reader.Operand

inductive Draft where
  | atom (name : String)
  | joined (left : Draft) (symbol : String) (right : Draft)

namespace Draft

/-- The symbols, those of the left and the right operand before their own. -/
def symbols : Draft → List String
  | atom _ => []
  | joined left s right => left.symbols ++ right.symbols ++ [s]

/-- The first symbol that no operator has. -/
def unknown? (d : Draft) : Option String := d.symbols.find? (¬ IsSymbol ·)

theorem unknown?_joined {left right : Draft} {s : String} :
    (joined left s right).unknown? =
      (left.unknown?.or right.unknown?).or (if IsSymbol s then none else some s) := by
  simp only [unknown?, symbols, List.find?_append, List.find?_singleton, decide_not,
    Bool.not_eq_true', decide_eq_false_iff_not, ite_not]

/-- The formula of a draft, operators being looked up in postorder. -/
def settle : Draft → Except ReadError Formula
  | atom name => .ok (.atom name)
  | joined left s right => do
    let f ← left.settle
    let g ← right.settle
    (Reader.Operand.joined f s g).settle

/-- The token sequences of a draft. -/
inductive Spelled : Draft → List Token → Prop
  | atom : t.kind = .identifier ∨ t.kind = .number → Spelled (.atom t.text) [t]
  | group : l.kind = .leftParen → Spelled d ts → r.kind = .rightParen →
    Spelled d (l :: ts ++ [r])
  | joined : l.kind = .leftParen → Spelled left ts → o.kind = .operator → Spelled right us →
    r.kind = .rightParen → Spelled (.joined left o.text right) (l :: ts ++ o :: us ++ [r])

end Draft

theorem Token.phrase_iff {ts : List Token} : Phrase ts ↔ ∃ d : Draft, d.Spelled ts := by
  constructor
  · intro H
    induction H with
    | atom h => exact ⟨_, .atom h⟩
    | group hl _ hr ih => exact ih.imp fun d H => .group hl H hr
    | binary hl _ ho _ hr ihl ihr =>
      obtain ⟨⟨d, Hl⟩, e, Hr⟩ := And.intro ihl ihr
      exact ⟨_, .joined hl Hl ho Hr hr⟩
  · rintro ⟨d, H⟩
    induction H with
    | atom h => exact .atom h
    | group hl _ hr ih => exact .group hl ih hr
    | joined hl _ ho _ hr ihl ihr => exact .binary hl ihl ho ihr hr

/-- A formula with the symbols of its operators in their place. -/
def Formula.draft : Formula → Draft
  | atom name => .atom name
  | binary left op right => .joined left.draft op.symbol right.draft

namespace Draft

theorem settle_draft (f : Formula) : f.draft.settle = .ok f := by
  induction f with
  | atom name => rfl
  | binary left op right ihl ihr =>
    simp only [Formula.draft, settle, ihl, ihr, ok_bind]
    exact Reader.Operand.settle_joined_eq_ok_iff.mpr ⟨op, rfl, rfl⟩

theorem settle_eq_ok_iff {d : Draft} {f : Formula} : d.settle = .ok f ↔ f.draft = d := by
  refine ⟨fun h => ?_, fun h => h ▸ settle_draft f⟩
  induction d generalizing f with
  | atom name => cases h; rfl
  | joined left s right ihl ihr =>
    simp only [settle, bind_eq_ok_iff, Reader.Operand.settle_joined_eq_ok_iff] at h
    obtain ⟨l, hl, r, hr, op, rfl, rfl⟩ := h
    rw [Formula.draft, ihl hl, ihr hr]

/-- Either all symbols are known, or the first unknown one is to blame. -/
theorem settle_cases (d : Draft) :
    (d.unknown? = none ∧ ∃ f, d.settle = .ok f) ∨
      ∃ s, d.unknown? = some s ∧ d.settle = .error (.unknownOperator s) := by
  induction d with
  | atom name => exact .inl ⟨rfl, _, rfl⟩
  | joined left s right ihl ihr =>
    rw [unknown?_joined, settle]
    obtain ⟨hl, f, hf⟩ | ⟨s', hl, hf⟩ := ihl
    · rw [hl, hf, Option.none_or, ok_bind]
      obtain ⟨hr, g, hg⟩ | ⟨s', hr, hg⟩ := ihr
      · rw [hr, hg, Option.none_or, ok_bind]
        by_cases hs : IsSymbol s
        · obtain ⟨op, hop⟩ := hs
          exact .inl ⟨if_pos ⟨op, hop⟩, _,
            Reader.Operand.settle_joined_eq_ok_iff.mpr ⟨op, hop, rfl⟩⟩
        · exact .inr ⟨s, if_neg hs, Reader.Operand.settle_joined_eq_error_iff.mpr ⟨hs, rfl⟩⟩
      · exact .inr ⟨s', by rw [hr]; rfl, by rw [hg]; rfl⟩
    · exact .inr ⟨s', by rw [hl]; rfl, by rw [hf]; rfl⟩

theorem settle_eq_error_iff {d : Draft} {e : ReadError} :
    d.settle = .error e ↔ ∃ s, d.unknown? = some s ∧ e = .unknownOperator s := by
  obtain ⟨h, f, hf⟩ | ⟨s, h, hf⟩ := d.settle_cases
  · simp [h, hf]
  · simp [h, hf, eq_comm]

end Draft

namespace Reader.Operand

/-- What is known of an operand before it is settled. -/
def draft : Operand → Draft
  | whole f => f.draft
  | joined left s right => .joined left.draft s right.draft

theorem settle_eq (o : Operand) : o.settle = o.draft.settle := by
  cases o with
  | whole f => exact (Draft.settle_draft f).symm
  | joined left s right => simp [draft, Draft.settle, Draft.settle_draft]

end Reader.Operand

end Formulary
