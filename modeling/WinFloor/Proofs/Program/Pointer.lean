import WinFloor.Proofs.Files.Path
import WinFloor.Proofs.Metadata.Faults
import WinFloor.Proofs.Metadata.Wrapper
import WinFloor.Proofs.Program.Analysis
import WinFloor.Proofs.Text.Lines
import WinFloor.Proofs.Text.Utf8

/-!
Metadata found through a file that points at it. What loading a path comes to is told by what the
path leads to: metadata is loaded from there (`loading_of_metadata`), and a text from where its first
line that is not blank points, once and not further (`loading_of_pointer`). A run that cannot go on
ends as one that found no metadata, or as one whose metadata is malformed (`loading_cases`). So a
file that points at metadata loads like the metadata itself (`loading_pointer`).
-/
namespace WinFloor

open Files

namespace Program

/-- What loading the metadata at a path comes to. -/
def loading (look : String → Entry) (path : String) : Except Failure Catalog :=
  (loadCatalog (m := Id) look path).run.run

/-- The catalog in a file, or the failure that there is none in it. -/
def assembled (path : String) (content : Octets) : Except Failure Catalog :=
  (catalogOf content).mapError fun f =>
    (Failure.ofFault f).within s!"Failed to load metadata '{path}'"

/-- The path that a file at `path` points at with `target`. -/
def pointed (path target : String) : String := Path.join (Path.parent path) target

theorem run_bind (first : ExceptT Failure Id α) (next : α → ExceptT Failure Id β) :
    (first >>= next).run.run = first.run.run >>= fun a => (next a).run.run := by
  rw [ExceptT.run_bind]
  cases first.run with
  | ok a => rfl
  | error f => rfl

section
variable {look : String → Entry} {path : String} {content : Octets}

theorem readMetadata_file (leads : look path = .file content) :
    (readMetadata (m := Id) look path).run.run = .ok content := by
  simp only [readMetadata, leads]
  rfl

theorem loading_eq (look : String → Entry) (path : String) :
    loading look path = (metadataPath (m := Id) look path).run.run >>= fun path =>
      (readMetadata (m := Id) look path).run.run >>= assembled path := by
  rw [loading, loadCatalog, run_bind]
  congr 1
  funext path
  rw [run_bind]
  congr 1
  funext content
  rw [assembled]
  cases catalogOf content with
  | ok catalog => rfl
  | error f => rfl

theorem metadataPath_file (leads : look path = .file content) :
    (metadataPath (m := Id) look path).run.run =
      if Metadata.isMetadata content then .ok path
      else
        match pointerTarget? content with
        | none => .error (.ofFault (.metadata (.notAPointer path)))
        | some target =>
          if (look (pointed path target)).isFile then .ok (pointed path target)
          else .error (.ofFault (.metadataMissing (pointed path target))) := by
  rw [metadataPath, run_bind, readMetadata_file leads]
  change (if Metadata.isMetadata content then _ else _ : ExceptT Failure Id String).run.run = _
  split
  next => rfl
  next =>
    cases pointerTarget? content with
    | none => rfl
    | some target =>
      dsimp only
      change (if (look (pointed path target)).isFile then _ else _ :
        ExceptT Failure Id String).run.run = _
      split
      next => rfl
      next => rfl

theorem metadataPath_of_not_file (leads : (look path).isFile = false) :
    (metadataPath (m := Id) look path).run.run = .error (.ofFault (.metadataMissing path)) := by
  rw [metadataPath, run_bind]
  cases other : look path with
  | file content => simp [other, Entry.isFile] at leads
  | unreadable reason => simp [other, Entry.isFile] at leads
  | directory => simp only [readMetadata, other]; rfl
  | missing reason => simp only [readMetadata, other]; rfl

/-- Metadata is loaded where it is. -/
theorem loading_of_metadata (leads : look path = .file content)
    (signed : Metadata.isMetadata content = true) :
    loading look path = assembled path content := by
  rw [loading_eq, metadataPath_file leads, if_pos signed]
  change (readMetadata (m := Id) look path).run.run >>= _ = _
  rw [readMetadata_file leads]
  rfl

theorem loading_of_not_file (leads : (look path).isFile = false) :
    loading look path = .error (.ofFault (.metadataMissing path)) := by
  rw [loading_eq, metadataPath_of_not_file leads]
  rfl

section
variable (leads : look path = .file content) (unsigned : Metadata.isMetadata content = false)
include leads unsigned

theorem loading_of_no_target (nowhere : pointerTarget? content = none) :
    loading look path = .error (.ofFault (.metadata (.notAPointer path))) := by
  rw [loading_eq, metadataPath_file leads, unsigned, nowhere]
  rfl

variable {target : String} (points : pointerTarget? content = some target)
include points

/-- What a file points at is loaded, whatever is in it. -/
theorem loading_of_pointer {inner : Octets} (found : look (pointed path target) = .file inner) :
    loading look path = assembled (pointed path target) inner := by
  rw [loading_eq, metadataPath_file leads, unsigned, points]
  simp only [found, Entry.isFile]
  change (readMetadata (m := Id) look (pointed path target)).run.run >>= _ = _
  rw [readMetadata_file found]
  rfl

theorem loading_of_dangling (missing : (look (pointed path target)).isFile = false) :
    loading look path = .error (.ofFault (.metadataMissing (pointed path target))) := by
  rw [loading_eq, metadataPath_file leads, unsigned, points]
  simp only [missing]
  rfl

end

end

/-! ## How loading ends -/

theorem assembled_cases (path : String) (content : Octets) :
    (∃ catalog, assembled path content = .ok catalog) ∨
      ∃ f, assembled path content = .error f ∧ f.exitCode = 6 := by
  rw [assembled]
  cases loaded : catalogOf content with
  | ok catalog => exact .inl ⟨catalog, rfl⟩
  | error f =>
    obtain ⟨defect, rfl⟩ := Metadata.catalogOf_fails content f loaded
    exact .inr ⟨_, rfl, rfl⟩

/-- There is no catalog in a file that only points at metadata. -/
theorem assembled_of_not_isMetadata (path : String) {content : Octets}
    (other : Metadata.isMetadata content = false) :
    ∃ f, assembled path content = .error f ∧ f.exitCode = 6 := by
  obtain ⟨defect, nowhere⟩ := Metadata.locate_of_not_isMetadata other
  rw [assembled, catalogOf, nowhere]
  exact ⟨_, rfl, rfl⟩

/-- Where every file can be read, a path leads to the content of one or to none. -/
theorem file_or_none {look : String → Entry}
    (readable : ∀ path reason, look path ≠ .unreadable reason) (path : String) :
    (∃ content, look path = .file content) ∨ (look path).isFile = false := by
  cases leads : look path with
  | file content => exact .inl ⟨content, rfl⟩
  | unreadable reason => exact absurd leads (readable path reason)
  | directory => exact .inr rfl
  | missing reason => exact .inr rfl

theorem loading_cases {look : String → Entry}
    (readable : ∀ path reason, look path ≠ .unreadable reason) (path : String) :
    (∃ catalog, loading look path = .ok catalog) ∨
      ∃ f, loading look path = .error f ∧ (f.exitCode = 3 ∨ f.exitCode = 6) := by
  have missing (path : String) : (Failure.ofFault (.metadataMissing path)).exitCode = 3 := rfl
  have settled (path : String) (content : Octets) :
      (∃ catalog, assembled path content = .ok catalog) ∨
        ∃ f, assembled path content = .error f ∧ (f.exitCode = 3 ∨ f.exitCode = 6) :=
    (assembled_cases path content).imp_right fun ⟨f, failed, code⟩ => ⟨f, failed, .inr code⟩
  rcases file_or_none readable path with ⟨content, leads⟩ | nowhere
  · by_cases signed : Metadata.isMetadata content = true
    · rw [loading_of_metadata leads signed]
      exact settled path content
    have unsigned := Bool.eq_false_iff.mpr signed
    cases points : pointerTarget? content with
    | none => exact .inr ⟨_, loading_of_no_target leads unsigned points, .inr rfl⟩
    | some target =>
      rcases file_or_none readable (pointed path target) with ⟨inner, found⟩ | dangling
      · rw [loading_of_pointer leads unsigned points found]
        exact settled _ inner
      · exact .inr ⟨_, loading_of_dangling leads unsigned points dangling, .inl (missing _)⟩
  · exact .inr ⟨_, loading_of_not_file nowhere, .inl (missing path)⟩

/-! ## Files that point at metadata -/

/-- The file is a text that does not begin like metadata, and `target` is its first line that is not
blank. -/
structure PointsAt (content : Octets) (target : String) : Prop where
  notRoot : ¬Metadata.signature <+: content.toList
  notImage : ¬Image.Header.dosSignature <+: content.toList
  text : ∃ text, content.toList = Text.Utf8.encode text ∧ Text.IsFirstLine text target

theorem PointsAt.unsigned {content : Octets} {target : String} (points : PointsAt content target) :
    Metadata.isMetadata content = false := by
  rw [Bool.eq_false_iff, ne_eq, Metadata.isMetadata_iff]
  exact not_or.mpr ⟨points.notRoot, points.notImage⟩

theorem PointsAt.pointerTarget? {content : Octets} {target : String}
    (points : PointsAt content target) : Program.pointerTarget? content = some target := by
  obtain ⟨text, octets, first⟩ := points.text
  rw [Program.pointerTarget?, octets, Text.Utf8.strict?_encode]
  exact Text.firstLine?_eq_some_iff.mpr first

/-- A file that points at metadata loads as what is at the path that it names from its own
directory, if that is metadata and does not point on. Where no file is at that path, the failure
tells of it. And whatever a path leads to, loading it either succeeds or ends with one of two exit
codes. -/
theorem loading_pointer (look : String → Entry)
    (readable : ∀ path reason, look path ≠ .unreadable reason) :
    (∀ path content target, look path = .file content → PointsAt content target →
      let found := Path.join (Path.parent path) target
      Path.IsBeside path target found ∧
      (∀ inner, look found = .file inner →
        (Metadata.signature <+: inner.toList ∨ Image.Header.dosSignature <+: inner.toList) →
          loading look path = loading look found) ∧
      (∀ inner, look found = .file inner →
        ¬Metadata.signature <+: inner.toList → ¬Image.Header.dosSignature <+: inner.toList →
          ∃ f, loading look path = .error f ∧ f.exitCode = 6) ∧
      ((look found).isFile = false →
        loading look path = .error (.ofFault (.metadataMissing found)) ∧
          (Failure.ofFault (.metadataMissing found)).exitCode = 3)) ∧
    ∀ path, (∃ catalog, loading look path = .ok catalog) ∨
      ∃ f, loading look path = .error f ∧ (f.exitCode = 3 ∨ f.exitCode = 6) := by
  refine ⟨fun path content target leads points => ?_, loading_cases readable⟩
  refine ⟨Path.isBeside_join path target, fun inner found signed => ?_,
    fun inner found notRoot notImage => ?_, fun missing => ⟨?_, rfl⟩⟩
  · rw [loading_of_pointer leads points.unsigned points.pointerTarget? found,
      loading_of_metadata found (Metadata.isMetadata_iff.mpr signed)]
    rfl
  · rw [loading_of_pointer leads points.unsigned points.pointerTarget? found]
    refine assembled_of_not_isMetadata _ (Bool.eq_false_iff.mpr fun signed => ?_)
    exact (Metadata.isMetadata_iff.mp signed).elim notRoot notImage
  · exact loading_of_dangling leads points.unsigned points.pointerTarget? missing

/-- A text that points at metadata behind lines that are blank. -/
def pointer : Octets :=
  (Text.Utf8.encode "\r\n \u00a0\n  ../lib/functions \nother\n").toArray

/-- A text that points at nothing where it stands. -/
def stray : Octets := (Text.Utf8.encode "functions").toArray

def pointerFiles : Tree :=
  ⟨[("conf", .directory [("used", .file pointer), ("unused", .file stray)]),
    ("lib", .directory [("functions", .file Metadata.emptyRoot)])]⟩

theorem loading_pointer_files :
    let look := pointerFiles.look
    (∀ path reason, look path ≠ .unreadable reason) ∧
      loading look "conf/used" = loading look "conf/../lib/functions" ∧
      Path.steps "conf/../lib/functions" = ["conf", "..", "lib", "functions"] ∧
      (loading look "conf/used").toOption.map Catalog.declared = some 0 ∧
      loading look "conf/unused" = .error (.ofFault (.metadataMissing "conf/functions")) := by
  intro look
  have readable : ∀ path reason, look path ≠ .unreadable reason := pointerFiles.look_ne_unreadable
  have pointers := (loading_pointer look readable).1
  have target : PointsAt pointer "../lib/functions" :=
    ⟨by decide +kernel, by decide +kernel, _, rfl,
      Text.firstLine?_eq_some_iff.mp (by decide +kernel)⟩
  have nowhere : PointsAt stray "functions" :=
    ⟨by decide +kernel, by decide +kernel, _, rfl,
      Text.firstLine?_eq_some_iff.mp (by decide +kernel)⟩
  have used : look "conf/used" = .file pointer := rfl
  have unused : look "conf/unused" = .file stray := rfl
  have beside : Path.join (Path.parent "conf/used") "../lib/functions" = "conf/../lib/functions" :=
    by decide +kernel
  have within : Path.join (Path.parent "conf/unused") "functions" = "conf/functions" := by
    decide +kernel
  have found : look "conf/../lib/functions" = .file Metadata.emptyRoot := rfl
  obtain ⟨place, same, -⟩ := pointers _ _ _ used target
  obtain ⟨-, -, -, dangling⟩ := pointers _ _ _ unused nowhere
  rw [beside] at place same
  rw [within] at dangling
  have loaded := same _ found (.inl (by decide +kernel))
  obtain ⟨-, steps⟩ := place.relative (by decide) (Tree.endsInStep_of_look used)
  refine ⟨readable, loaded, steps.trans (by decide +kernel), ?_, (dangling rfl).1⟩
  rw [loaded]
  decide +kernel

end Program

end WinFloor
