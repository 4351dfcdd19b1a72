import Formulary.CommandLine.Run
import Formulary.Proofs.Decoding
import Formulary.Proofs.Layout

/-!
# What a source holds

A source yields a text to the reader (`CommandLine.Source.Yields`), or it is a file without one
(`CommandLine.Textless`), or there is no source at all. The exit code of a run tells these apart,
and for a text it tells how reading it ends (`CommandLine.Source.Yields.exitCode_iff`). A formula
may stand in a file as well as in an argument (`CommandLine.Source.formula_file`).
-/

namespace Formulary.CommandLine
open Text (trim unifyLineEnds isBlank)
open Text.Utf8 (encode)

variable {files : FileSystem} {source : Source} {f : Formula} {e : RunError}

/-! ### Files -/

/-- A file has no text: it cannot be opened, its bytes are not those of any text, or there is
nothing but blanks in it. -/
def Textless (files : FileSystem) (path : Path) : Prop :=
  (∃ e, files path = .error e) ∨ (∃ bytes, files path = .ok bytes ∧ ∀ cs, bytes ≠ encode cs) ∨
    ∃ cs, files path = .ok (encode cs) ∧ ∀ c ∈ cs, isBlank c

/-- The text that a source has for the reader. -/
inductive Source.Yields (files : FileSystem) : Source → String → Prop
  | text : Yields files (.text s) s
  | file : files path = .ok (encode cs) → s.toList = trim (unifyLineEnds cs) → s ≠ "" →
    Yields files (.file path) s

theorem trim_unifyLineEnds_eq_nil_iff {cs : List Char} :
    trim (unifyLineEnds cs) = [] ↔ ∀ c ∈ cs, isBlank c := by
  rw [Text.trim_eq_nil_iff]
  exact Text.forall_mem_unifyLineEnds (by decide)

theorem fileText_eq_ok_iff {path : Path} {s : String} : fileText files path = .ok s ↔
    ∃ cs, files path = .ok (encode cs) ∧ s.toList = trim (unifyLineEnds cs) ∧ s ≠ "" := by
  simp only [fileText, bind_eq_ok_iff, mapError_eq_ok_iff]
  constructor
  · rintro ⟨bytes, hbytes, cs, hcs, h⟩
    rw [Text.Utf8.decode_eq_ok_iff.mp hcs] at hbytes
    refine ⟨cs, hbytes, ?_⟩
    split at h
    · cases h
    · cases h
      rename_i hne
      refine ⟨String.toList_ofList, fun hs => hne ?_⟩
      exact String.ofList_eq_empty_iff.mp hs
  · rintro ⟨cs, hbytes, hs, hne⟩
    refine ⟨_, hbytes, cs, Text.Utf8.decode_eq_ok_iff.mpr rfl, ?_⟩
    rw [← hs]
    split
    · rename_i hnil
      exact absurd (String.toList_eq_nil_iff.mp hnil) hne
    · rw [String.ofList_toList]

theorem exitCode_of_fileText {path : Path} (h : fileText files path = .error e) :
    e.exitCode = 4 := by
  simp only [fileText, bind_eq_error_iff] at h
  rcases h with h | ⟨bytes, -, h | ⟨cs, -, h⟩⟩
  · cases hx : files path <;> rw [hx] at h <;> cases h
    rfl
  · cases hx : Text.Utf8.decode bytes <;> rw [hx] at h <;> cases h
    rfl
  · split at h <;> cases h
    rfl

theorem textless_iff {path : Path} :
    Textless files path ↔ ∃ e, fileText files path = .error e := by
  constructor
  · intro H
    cases h : fileText files path with
    | error e => exact ⟨e, rfl⟩
    | ok s =>
      obtain ⟨cs, hcs, hs, hne⟩ := fileText_eq_ok_iff.mp h
      rcases H with ⟨e, he⟩ | ⟨bytes, hbytes, hnone⟩ | ⟨cs', hcs', hblank⟩
      · cases he.symm.trans hcs
      · cases hbytes.symm.trans hcs
        exact absurd rfl (hnone cs)
      · have hcs : cs' = cs := Text.Utf8.encode_injective (Except.ok.inj (hcs'.symm.trans hcs))
        rw [hcs] at hblank
        rw [trim_unifyLineEnds_eq_nil_iff.mpr hblank] at hs
        exact absurd (String.toList_eq_nil_iff.mp hs) hne
  · rintro ⟨e, h⟩
    cases hbytes : files path with
    | error e' => exact .inl ⟨e', hbytes⟩
    | ok bytes =>
      by_cases hcs : ∃ cs, bytes = encode cs
      · obtain ⟨cs, rfl⟩ := hcs
        refine .inr (.inr ⟨cs, hbytes, ?_⟩)
        apply Classical.byContradiction
        intro hblank
        have hok := fileText_eq_ok_iff (s := String.ofList (trim (unifyLineEnds cs))).mpr
          ⟨cs, hbytes, String.toList_ofList, fun hs => hblank ?_⟩
        · cases h.symm.trans hok
        · exact trim_unifyLineEnds_eq_nil_iff.mp (String.ofList_eq_empty_iff.mp hs)
      · exact .inr (.inl ⟨bytes, hbytes, fun cs h => hcs ⟨cs, h⟩⟩)

/-! ### Sources -/

/-- The text of a source, or why it has none. -/
def Source.contents (files : FileSystem) : Source → Except RunError String
  | text s => .ok s
  | file path => fileText files path
  | nothing => .error .noText

/-- The formula of a source, or why it has none. -/
def Source.formula (files : FileSystem) (source : Source) : Except RunError Formula := do
  let text ← source.contents files
  (Formula.parse text).mapError .read

theorem Source.contents_eq_ok_iff {s : String} :
    source.contents files = .ok s ↔ source.Yields files s := by
  constructor
  · intro h
    cases source with
    | text t =>
      cases h
      exact .text
    | file path =>
      obtain ⟨cs, hcs, hs, hne⟩ := fileText_eq_ok_iff.mp h
      exact .file hcs hs hne
    | nothing => cases h
  · intro H
    cases H with
    | text => rfl
    | file hcs hs hne => exact fileText_eq_ok_iff.mpr ⟨_, hcs, hs, hne⟩

theorem Source.formula_eq_ok_iff :
    source.formula files = .ok f ↔ ∃ s, source.Yields files s ∧ Formula.parse s = .ok f := by
  simp only [formula, bind_eq_ok_iff, contents_eq_ok_iff, mapError_eq_ok_iff]

/-- A source has a text, or it is a file that has none, or it is not there. -/
theorem Source.cases_contents (files : FileSystem) (source : Source) :
    (∃ s, source.Yields files s) ∨
    (∃ path e, source = .file path ∧ Textless files path ∧ source.formula files = .error e ∧
      e.exitCode = 4) ∨
    source = .nothing ∧ source.formula files = .error .noText := by
  cases h : source.contents files with
  | ok s => exact .inl ⟨s, contents_eq_ok_iff.mp h⟩
  | error e =>
    have hformula : source.formula files = .error e := by rw [formula, h, error_bind]
    cases source with
    | text s => cases h
    | file path =>
      have htextless := textless_iff.mpr ⟨e, h⟩
      exact .inr (.inl ⟨path, e, rfl, htextless, hformula, exitCode_of_fileText h⟩)
    | nothing =>
      cases h
      exact .inr (.inr ⟨rfl, hformula⟩)

namespace Source.Yields
variable {s : String}

theorem formula_eq (H : source.Yields files s) :
    source.formula files = (Formula.parse s).mapError .read := by
  rw [formula, contents_eq_ok_iff.mpr H, ok_bind]

theorem not_textless {path : Path} (H : (Source.file path).Yields files s) :
    ¬ Textless files path := by
  intro h
  obtain ⟨e, he⟩ := textless_iff.mp h
  cases he.symm.trans (contents_eq_ok_iff.mpr H)

end Source.Yields

/-- A grammatical text may as well stand in a file. -/
theorem Source.formula_file {path : Path} {text : String}
    (hfile : files path = .ok (encode text.toList)) (hread : Grammatical (Formula.parse text)) :
    (file path).formula files = (Source.text text).formula files := by
  have hparse := Formula.parse_trim_unifyLineEnds hread
  have hne : String.ofList (trim (unifyLineEnds text.toList)) ≠ "" := by
    intro h
    rw [h] at hparse
    rw [← hparse] at hread
    have hempty : Formula.parse "" = .error .unexpectedEnd := by
      rw [Formula.parse, Lexing.ofText, String.toList_empty, Lexing.ofChars_nil]
      rfl
    rcases hread with ⟨f, hf⟩ | ⟨symbol, hs⟩
    · cases hempty.symm.trans hf
    · cases hempty.symm.trans hs
  have H : (file path).Yields files _ := .file hfile String.toList_ofList hne
  rw [H.formula_eq, Yields.text.formula_eq, hparse]

/-! ### Exit codes -/

/-- The exit code for what has been read. -/
def exitCodeOf : Except RunError Formula → Nat
  | .ok _ => 0
  | .error e => e.exitCode

theorem exitCode_read_cases (e : ReadError) :
    (∃ symbol, e = .unknownOperator symbol) ∧ (RunError.read e).exitCode = 3 ∨
      (∀ symbol, e ≠ .unknownOperator symbol) ∧ (RunError.read e).exitCode = 2 := by
  cases e with
  | unknownOperator symbol => exact .inl ⟨⟨symbol, rfl⟩, rfl⟩
  | unexpected | unexpectedEnd | foreign => exact .inr ⟨nofun, rfl⟩

/-- The exit code for a text tells how reading it ends. -/
theorem Source.Yields.exitCode_iff {s : String} (H : source.Yields files s) :
    let code := exitCodeOf (source.formula files)
    (code = 2 ↔ ∃ e, Formula.parse s = .error e ∧ ∀ symbol, e ≠ .unknownOperator symbol) ∧
    (code = 3 ↔ ∃ symbol, Formula.parse s = .error (.unknownOperator symbol)) ∧
    (code = 0 ↔ ∃ f, Formula.parse s = .ok f) ∧ code ≠ 4 := by
  rw [H.formula_eq]
  cases Formula.parse s with
  | ok f =>
    have hok : exitCodeOf ((Except.ok f : Except ReadError Formula).mapError .read) = 0 := rfl
    simp [hok]
  | error e =>
    have herror : exitCodeOf ((Except.error e : Except ReadError Formula).mapError .read) =
        (RunError.read e).exitCode := rfl
    rcases exitCode_read_cases e with ⟨⟨symbol, rfl⟩, h⟩ | ⟨hne, h⟩
    · simp [herror, h]
    · simpa [herror, h] using hne

/-- The exit code 4 is for files without text. -/
theorem exitCodeOf_formula_eq_four_iff (files : FileSystem) (source : Source) :
    exitCodeOf (source.formula files) = 4 ↔ ∃ path, source = .file path ∧ Textless files path := by
  rcases source.cases_contents files with ⟨s, H⟩ | ⟨path, e, rfl, htextless, h, hcode⟩ | ⟨rfl, h⟩
  · constructor
    · intro h
      exact absurd h H.exitCode_iff.2.2.2
    · rintro ⟨path, rfl, htextless⟩
      exact absurd htextless H.not_textless
  · rw [h]
    exact ⟨fun _ => ⟨path, rfl, htextless⟩, fun _ => hcode⟩
  · rw [h]
    constructor
    · intro h
      cases h
    · rintro ⟨path, ⟨⟩, -⟩

theorem exitCode_mem (e : RunError) : e.exitCode ∈ [2, 3, 4] := by
  cases e with
  | read e => rcases exitCode_read_cases e with ⟨-, h⟩ | ⟨-, h⟩ <;> simp [h]
  | file | decode | blank | noText => simp [RunError.exitCode]

theorem exitCodeOf_eq_zero_iff {r : Except RunError Formula} :
    exitCodeOf r = 0 ↔ ∃ f, r = .ok f := by
  cases r with
  | ok f => exact ⟨fun _ => ⟨f, rfl⟩, fun _ => rfl⟩
  | error e =>
    have hne : e.exitCode ≠ 0 := by
      intro h
      have hmem := exitCode_mem e
      rw [h] at hmem
      exact absurd hmem (by decide)
    exact ⟨fun h => absurd h hne, nofun⟩

end Formulary.CommandLine
