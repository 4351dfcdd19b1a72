import Formulary.Session.Build

/-!
# Queries

The requests of a session that leave the settings of its logger alone: operators, tokens, reading,
building, the analyses, and single records. An answer may come with a node to be registered.
-/

namespace Formulary.Session

/-- What an analysis is said to have found. -/
inductive Finding where
  | text (s : String)
  | formula (b : Blueprint)

/-- The visitors that can be sent to a formula. -/
inductive VisitorName where
  /-- Note the node itself. -/
  | record
  /-- List all labels, children first. -/
  | postorder
  /-- Always go left. -/
  | left
  /-- Always go right. -/
  | right
  deriving DecidableEq

inductive Query where
  | vocabulary
  | findOperator (symbol : String)
  | describeOperator (op : Operator)
  | scan (text : String)
  | read (text : String)
  | readAll (texts : List String)
  | build (b : Blueprint)
  | parts (b : Blueprint)
  | atoms (b : Blueprint)
  | counts (b : Blueprint)
  | depth (b : Blueprint)
  | outline (b : Blueprint)
  | analyze (b : Blueprint)
  | substitute (b : Blueprint) (mapping : List (String × Blueprint))
  /-- One collector, one printer and one substituter for all formulas in turn. -/
  | reuse (bs : List Blueprint) (mapping : List (String × Blueprint))
  | visit (v : VisitorName) (subject : NonFormula ⊕ Blueprint)
  | compare (a b : Blueprint)
  | distinct (bs : List Blueprint)
  | log (severity : Severity) (message : String)
  | logUnknownOperator (symbol : String) (known : Int)
  | logFormulaRead (text : String) (b : Blueprint)
  | logAnalysisResult (analysis : String) (b : Blueprint) (finding : Finding)

/-- What the analysers of `Query.reuse` find in one formula. -/
structure Reused where
  atoms : List String
  outline : List String
  result : Formula
  changes : List Change

inductive Answer where
  | done
  | vocabulary (operators : List Operator) (forms : List String)
  | operator (op : Operator)
  | operatorDetails (op : Operator)
  | lexing (l : Lexing)
  | formula (f : Formula)
  | readings (rs : List (Except ReadError Formula))
  | parts (f : Formula)
  | atoms (names : List String)
  | counts (t : Tally)
  | depth (n : Nat)
  | outline (lines : List String)
  | analysis (names : List String) (t : Tally) (n : Nat) (lines : List String)
  | substituted (result : Formula) (same : Bool) (changes : List Change)
  | reused (rs : List Reused)
  | visited (f : Formula)
  | labels (ls : List Formula.Label)
  | atomName (name : String)
  | comparison (equal renderEqual : Bool) (distinct : Nat)
  | firstEqual (indices : List Nat)

/-- The visitor of a name. -/
def VisitorName.visitor : VisitorName → Visitor Answer
  | record => ⟨fun name => .visited (.atom name), fun l op r => .visited (.binary l op r)⟩
  | postorder =>
    ⟨fun name => .labels [.name name],
      fun l op r => .labels (l.postorder ++ r.postorder ++ [.operator op])⟩
  | left => ⟨.atomName, fun l _ _ => .atomName l.leftmost⟩
  | right => ⟨.atomName, fun _ _ r => .atomName r.rightmost⟩

/-- Analysers that are used for one formula after another. -/
structure Analysers where
  collector : AtomCollector
  printer : OutlinePrinter
  substituter : Substituter

/-- What the same analysers find in one formula after another. -/
def Analysers.reuse (a : Analysers) (next : Nat) : List Node → List Reused
  | [] => []
  | n :: ns =>
    let (atoms, collector) := a.collector.collect n.formula
    let (outline, printer) := a.printer.outline n.formula
    let (result, substituter, next) := a.substituter.substitute next n
    ⟨atoms, outline, result.formula, n.changes result⟩ ::
      reuse ⟨collector, printer, substituter⟩ next ns

/-- For each formula the index of the first one equal to it. -/
def firstEqual (fs : List Formula) : List Nat := fs.map (fs.idxOf ·)

/-- The answer to a query, and the node to be registered, if any. -/
def Query.run (registry : Array Node) : Query → Build (Answer × Option Node)
  | vocabulary => return (.vocabulary Operator.all Formula.formNames, none)
  | findOperator symbol => do
    match ← Build.logged (Operator.find symbol) with
    | some op => return (.operator op, none)
    | none => throw (.read (.unknownOperator symbol))
  | describeOperator op => return (.operatorDetails op, none)
  | scan text => return (.lexing (← Build.logged (Lexing.scan text)), none)
  | read text => do
    let n ← Build.read text
    return (.formula n.formula, some n)
  | readAll texts => do
    let rs ← texts.mapM fun text => Build.logged (Formula.readQuietly text)
    return (.readings rs, none)
  | build b => do
    let n ← Build.node registry b
    return (.formula n.formula, some n)
  | parts b => do
    let n ← Build.node registry b
    return (.parts n.formula, none)
  | atoms b => do
    let n ← Build.node registry b
    return (.atoms (← Build.logged n.formula.collectAtoms), none)
  | counts b => do
    let n ← Build.node registry b
    return (.counts (← Build.logged n.formula.countOperators), none)
  | depth b => do
    let n ← Build.node registry b
    return (.depth (← Build.logged n.formula.measureDepth), none)
  | outline b => do
    let n ← Build.node registry b
    return (.outline n.formula.outline, none)
  | analyze b => do
    let f := (← Build.node registry b).formula
    let names ← Build.logged f.collectAtoms
    let tally ← Build.logged f.countOperators
    let depth ← Build.logged f.measureDepth
    return (.analysis names tally depth f.outline, none)
  | substitute b m => do
    let n ← Build.node registry b
    let m ← Build.mapping registry m
    let (result, next) ← Build.logged (n.substitute m (← get))
    set next
    return (.substituted result.formula (result.id == n.id) (n.changes result), some result)
  | reuse bs m => do
    let m ← Build.mapping registry m
    let ns ← bs.mapM (Build.node registry)
    let analysers : Analysers := ⟨.empty, .empty, .new m⟩
    return (.reused (analysers.reuse (← get) ns), none)
  | visit v subject => do
    let subject ← match subject with
      | .inl a => pure (.inl a)
      | .inr b => do
        let n ← Build.node registry b
        pure (.inr n.formula)
    match Formulary.visit v.visitor subject with
    | .ok answer => return (answer, none)
    | .error a => throw (.notAFormula a)
  | compare a b => do
    let f := (← Build.node registry a).formula
    let g := (← Build.node registry b).formula
    return (.comparison (f = g) (f.render = g.render) (if f = g then 1 else 2), none)
  | distinct bs => do
    let ns ← bs.mapM (Build.node registry)
    return (.firstEqual (firstEqual (ns.map Node.formula)), none)
  | log severity message => do
    Build.logged (Logged.log severity message)
    return (.done, none)
  | logUnknownOperator symbol known => do
    Build.logged (Logged.unknownOperator symbol known)
    return (.done, none)
  | logFormulaRead text b => do
    let n ← Build.node registry b
    Build.logged (Logged.formulaRead text n.formula)
    return (.done, none)
  | logAnalysisResult analysis b finding => do
    let shown ← match finding with
      | .text s => pure s
      | .formula b => do
        let found ← Build.node registry b
        pure found.formula.render
    let n ← Build.node registry b
    Build.logged (Logged.analysisResult analysis n.formula shown)
    return (.done, none)

end Formulary.Session
