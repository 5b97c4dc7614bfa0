import WinFloor.Proofs.Files.Path
import WinFloor.Proofs.Image.Complete

/-!
Analysing several binaries. A path fails by itself: where it leads to no file, or to one that is no
well-formed image. What is reported on the other binaries does not depend on that, and the run ends
with the exit code of the first path that fails (`report_assessAll`).
-/
namespace WinFloor

open Files

namespace Program

section
variable (look : String → Entry) (matcher : Matcher) (withHeader : Bool)

/-- The path leads to a well-formed image. -/
def isImage (path : String) : Bool :=
  match look path with
  | .file content => (Image.Header.read content).isOk
  | .unreadable _ | .directory | .missing _ => false

/-- What is found out about the image at a path. -/
def assessment? (path : String) : Option Assessment :=
  match look path with
  | .file content =>
    (Image.Header.read content).toOption.map fun header =>
      matcher.assess path header (Import.walk content header) withHeader
  | .unreadable _ | .directory | .missing _ => none

/-- What a run ends with for a path that leads to no image. -/
def rejection (path : String) : Nat :=
  if (look path).isFile then 5 else 4

/-- What an analysis of the binaries comes to. -/
def analysis (o : Report.Options) (paths : List String) : Outcome :=
  report o (assessAll (m := Id) look matcher withHeader paths).run

theorem assessAll_eq_map (paths : List String) :
    (assessAll (m := Id) look matcher withHeader paths).run =
      paths.map fun path => (assess (m := Id) look matcher withHeader path).run := by
  exact List.idRun_mapM

theorem assess_file {path : String} {content : Octets} (leads : look path = .file content) :
    (assess (m := Id) look matcher withHeader path).run =
      ((Image.Header.read content).map fun header =>
        matcher.assess path header (Import.walk content header) withHeader).mapError fun f =>
          (Failure.ofFault f).within s!"Failed to analyze '{path}'" := by
  have binary : Binary.read content =
      (Image.Header.read content).map fun header => ⟨header, Import.walk content header⟩ := by
    rw [Binary.read]
    cases Image.Header.read content <;> rfl
  simp only [assess, leads, bind, binary]
  cases Image.Header.read content <;> rfl

/-- A path gives an assessment exactly if it leads to an image. -/
theorem toOption_assess (path : String) :
    (assess (m := Id) look matcher withHeader path).run.toOption =
      assessment? look matcher withHeader path := by
  cases leads : look path with
  | file content =>
    simp only [assess_file look matcher withHeader leads, assessment?, leads]
    cases Image.Header.read content <;> rfl
  | unreadable reason => simp only [assess, assessment?, leads]; rfl
  | directory => simp only [assess, assessment?, leads]; rfl
  | missing reason => simp only [assess, assessment?, leads]; rfl

/-- A path that can be read if it is a file gives an assessment or a failure with the exit code of
what is wrong. -/
theorem assess_cases {path : String} (readable : ∀ reason, look path ≠ .unreadable reason) :
    (isImage look path = true ∧
      ∃ a, (assess (m := Id) look matcher withHeader path).run = .ok a) ∨
    (isImage look path = false ∧
      ∃ f, (assess (m := Id) look matcher withHeader path).run = .error f ∧
        f.exitCode = rejection look path) := by
  cases leads : look path with
  | unreadable reason => exact absurd leads (readable reason)
  | directory =>
    simp only [isImage, rejection, assess, leads]
    exact .inr ⟨trivial, _, rfl, rfl⟩
  | missing reason =>
    simp only [isImage, rejection, assess, leads]
    exact .inr ⟨trivial, _, rfl, rfl⟩
  | file content =>
    simp only [isImage, rejection, leads, assess_file look matcher withHeader leads]
    cases read : Image.Header.read content with
    | ok header => exact .inl ⟨rfl, _, rfl⟩
    | error f =>
      have malformed : f.isImageFault = true := Image.Header.read_isImageFault content f read
      exact .inr ⟨rfl, _, rfl, beq_iff_eq.mp malformed⟩

/-- The first path that fails decides how the run ends, and the failures behind it do not count. -/
theorem ending_analysis (o : Report.Options) {paths : List String}
    (readable : ∀ path ∈ paths, ∀ reason, look path ≠ .unreadable reason) :
    (analysis look matcher withHeader o paths).ending =
      .ok (((paths.find? fun path => !isImage look path).map (rejection look)).getD 0) := by
  simp only [analysis, report, assessAll_eq_map, exitCode]
  congr 2
  induction paths with
  | nil => rfl
  | cons path paths ih =>
    have rest := ih fun p among => readable p (List.mem_cons_of_mem _ among)
    rcases assess_cases look matcher withHeader (readable path List.mem_cons_self) with
      ⟨image, a, assessed⟩ | ⟨bad, f, failed, code⟩
    · simpa [assessed, image] using rest
    · simp [failed, bad, code]

/-- The binaries that are images are reported on in their order, whatever fails around them, and the
run ends with zero exactly if all are: else with the code of the first that is not. -/
theorem report_assessAll (o : Report.Options) (paths : List String)
    (readable : ∀ path ∈ paths, ∀ reason, look path ≠ .unreadable reason) :
    let result := analysis look matcher withHeader o paths
    result.output =
        Report.written o (paths.filterMap (assessment? look matcher withHeader)) ∧
      result.ending =
        .ok (((paths.find? fun path => !isImage look path).map (rejection look)).getD 0) ∧
      (result.ending = .ok 0 ↔ ∀ path ∈ paths, isImage look path = true) := by
  have ending := ending_analysis look matcher withHeader o readable
  refine ⟨?_, ending, ?_⟩
  · simp only [analysis, report, assessAll_eq_map, List.filterMap_map]
    congr 2
    funext path
    exact toOption_assess look matcher withHeader path
  · rw [ending]
    cases first : paths.find? fun path => !isImage look path with
    | none => simpa using first
    | some path =>
      have bad : isImage look path = false := by simpa using List.find?_some first
      have among := List.mem_of_find?_eq_some first
      have positive : rejection look path ≠ 0 := by
        unfold rejection
        split <;> decide
      constructor
      · intro zero
        exact absurd (Except.ok.inj zero) positive
      · intro all
        exact absurd (all path among) (by simp [bad])

end

/-- The least file that is an image: headers without directories and sections. -/
def bareImage : Octets :=
  ([Image.Header.dosSignature, List.replicate 58 0, [64, 0, 0, 0],
    Image.Header.imageSignature, [0x4c, 1, 0, 0], List.replicate 12 0, [96, 0, 0, 0],
    [0x0b, 1], List.replicate 94 0] : List (List UInt8)).flatten.toArray

def mixedFiles : Tree :=
  ⟨[("a.exe", .file bareImage), ("notes", .file #[0x68, 0x69]), ("lib", .directory [])]⟩

/-- Of four paths the first leads to an image, the second to a directory, the third to a file that
is no image, and the last to the image again. -/
theorem report_assessAll_mixedFiles :
    let paths := ["a.exe", "lib", "notes", "./a.exe"]
    let result := analysis mixedFiles.look ⟨.empty, .standard⟩ false ⟨.json, false, false, false⟩ paths
    (∀ path ∈ paths, ∀ reason, mixedFiles.look path ≠ .unreadable reason) ∧
    result.output = Report.written ⟨.json, false, false, false⟩
      [⟨"a.exe", 32, "i386", 0, 0, 0, 0, 0, "unknown", .api⟩,
       ⟨"./a.exe", 32, "i386", 0, 0, 0, 0, 0, "unknown", .api⟩] ∧
    result.ending = .ok 4 := by
  intro paths result
  have readable : ∀ path ∈ paths, ∀ reason, mixedFiles.look path ≠ .unreadable reason :=
    fun path _ reason => mixedFiles.look_ne_unreadable path reason
  obtain ⟨output, ending, -⟩ := report_assessAll mixedFiles.look ⟨.empty, .standard⟩ false
    ⟨.json, false, false, false⟩ paths readable
  have found : paths.filterMap (assessment? mixedFiles.look ⟨.empty, .standard⟩ false) =
      [⟨"a.exe", 32, "i386", 0, 0, 0, 0, 0, "unknown", .api⟩,
       ⟨"./a.exe", 32, "i386", 0, 0, 0, 0, 0, "unknown", .api⟩] := by
    decide +kernel
  have code : ((paths.find? fun path => !isImage mixedFiles.look path).map
      (rejection mixedFiles.look)).getD 0 = 4 := by
    decide +kernel
  rw [found] at output
  rw [code] at ending
  exact ⟨readable, output, ending⟩

end Program

end WinFloor
