import GraphQL.Command.Directory
import GraphQL.Proofs.Diagnostic.Report
import GraphQL.Proofs.Document.Spans
import GraphQL.Proofs.Production.Placement
import GraphQL.Proofs.Relocation.Placeless
import GraphQL.Proofs.Workspace.Texts

/-! # Files are checked one by one

All files of a check go through one workspace, under one number for each path, beside the built-in
definitions. Reports tell nothing of that: they show the syntax errors that a file has on its own,
whatever its number is and whatever other files there are, as long as files with one path have one
text. Files that are read from a directory do. Each error can be shown, since it points at places
inside its file.

* `oneTextPerPath_of_read`: what is read by path agrees,
* `workspaceOf_diagnostics`: the workspace has the errors of every file,
* `checkFiles_separate`: so a check reports them file by file. -/

namespace GraphQL

set_option autoImplicit false

/-! ## Reports under any number -/

/-- A report does not tell the number of the document. -/
theorem Diagnostic.render_renumber (source : Int) (text filename : Text) (d : Diagnostic) :
    (d.mapSpans (Span.renumber source)).render text filename = d.render text filename := by
  simp only [render, mapSpans, List.map_map, List.flatMap_map]
  rfl

theorem reports_renumber (source source' : Int) (text filename : Text) :
    (parse source text).diagnostics.map (Diagnostic.render text filename) =
      (parse source' text).diagnostics.map (Diagnostic.render text filename) := by
  rw [parse_renumber source source', List.map_map]
  exact List.map_congr_left fun d _ => (d.render_renumber source' text filename).symm

/-! ## Places that errors point at -/

theorem Diagnostic.opening_of_label {gap : Recovery.Gap Expectation} {label : Label}
    (h : label ∈ (ofGap gap).labels) : gap.expected.opening = some label.span := by
  obtain ⟨span, code, opening⟩ := gap
  cases opening with
  | none => cases h
  | some opening =>
    cases related : code.entry.relatedLabel <;> simp_all [ofGap, make]

/-- The errors of a text point at places inside it. -/
theorem parse_points_inside (source : Int) (text : Text) :
    ∀ d ∈ (parse source text).diagnostics, ∀ span ∈ d.span :: d.labels.map Label.span,
      span.Inside source text.length := by
  intro d member
  rw [Parsed.diagnostics, syntaxErrors, List.mem_mergeSort, List.mem_append] at member
  rcases member with ofGap | ofRun
  · obtain ⟨gap, member, rfl⟩ := List.mem_map.1 ofGap
    refine List.forall_mem_cons.2 ⟨gaps_inside source text gap member, List.forall_mem_map.2 ?_⟩
    intro label hl
    have told := Diagnostic.opening_of_label hl
    obtain outside | ⟨t, ht, same⟩ := (parse_points source text).leaf told _ _ member
    · cases outside
    · exact same ▸ lex_inside source text t (parse_leaf_mem ht)
  · obtain ⟨run, member, rfl⟩ := List.mem_map.1 ofRun
    exact List.forall_mem_singleton.2 (runs_inside source text run member)

/-! ## Files of one directory -/

/-- Files with one path have one text. -/
def OneTextPerPath (files : List SourceFile) : Prop :=
  ∀ f ∈ files, ∀ g ∈ files, f.path = g.path → f.text = g.text

theorem oneTextPerPath_singleton (file : SourceFile) : OneTextPerPath [file] := by
  simp [OneTextPerPath]

theorem mem_of_sourceFiles {readings : List (Text × Reading)} {files : List SourceFile}
    (h : sourceFiles readings = .ok files) :
    ∀ file ∈ files, (file.path, .ok file.text) ∈ readings := by
  induction readings generalizing files with
  | nil =>
    cases h
    exact List.forall_mem_nil _
  | cons first readings ih =>
    obtain ⟨path, failure | text⟩ := first
    · cases h
    · cases rest : sourceFiles readings with
      | error message =>
        rw [sourceFiles, rest] at h
        cases h
      | ok others =>
        rw [sourceFiles, rest] at h
        cases h
        exact List.forall_mem_cons.2 ⟨List.mem_cons_self, fun file hf =>
          List.mem_cons_of_mem _ (ih rest file hf)⟩

/-- So it is with files that are read one after the other, each as it is found under its path. -/
theorem oneTextPerPath_of_read {read : Text → Reading} {paths : List Text}
    {files : List SourceFile}
    (h : sourceFiles (paths.map fun path => (path, read path)) = .ok files) :
    OneTextPerPath files := by
  have found : ∀ file ∈ files, read file.path = .ok file.text := by
    intro file hf
    obtain ⟨path, -, same⟩ := List.mem_map.1 (mem_of_sourceFiles h file hf)
    obtain ⟨rfl, content⟩ := Prod.mk.inj same
    exact content
  intro f hf g hg same
  have content := found f hf
  rw [same, found g hg] at content
  exact (Except.ok.inj content).symm

/-! ## The workspace of some files -/

theorem workspaceOf_eq (files : List SourceFile) :
    workspaceOf files =
      Workspace.rebuiltRun true (files.map fun file => .add file.path file.text false) := by
  rw [Workspace.rebuiltRun_eq, Workspace.run, List.foldl_map]
  rfl

/-- Where files with one path have one text, that text stands under the path in the end. -/
theorem putTexts_files {files : List SourceFile} (agree : OneTextPerPath files)
    (texts : Text → Option Text) : ∀ file ∈ files,
      (files.map fun file => Workspace.Step.add file.path file.text false).foldl
        (fun texts step => step.putTexts texts) texts file.path = some file.text := by
  rw [List.foldl_map]
  induction files using List.reverseRecOn with
  | nil => exact List.forall_mem_nil _
  | append_singleton files last ih =>
    intro file hf
    have there : last ∈ files ++ [last] := List.mem_append_right _ List.mem_cons_self
    rw [List.foldl_append]
    by_cases same : file.path = last.path
    · rw [agree file hf last there same, same]
      exact Function.update_self ..
    · refine (Function.update_of_ne same _ _).trans (ih (fun f hf g hg => ?_) file ?_)
      · exact agree f (List.mem_append_left _ hf) g (List.mem_append_left _ hg)
      · exact (List.mem_append.1 hf).resolve_right fun h => same (by rw [List.mem_singleton.1 h])

theorem workspaceOf_diagnostics {files : List SourceFile} (agree : OneTextPerPath files)
    {file : SourceFile} (hf : file ∈ files) : ∃ source : Nat,
      (workspaceOf files).diagnostics file.path = (parse source file.text).diagnostics := by
  rw [workspaceOf_eq]
  refine Workspace.run_diagnostics true _ ?_
  rw [Workspace.run_texts, List.foldl_append]
  exact putTexts_files agree _ file hf

/-! ## Checking -/

theorem checkFiles_reports {files : List SourceFile} (agree : OneTextPerPath files) (source : Int) :
    (checkFiles files).reports = files.flatMap fun file =>
      (parse source file.text).diagnostics.map (Diagnostic.render file.text file.path) := by
  refine List.flatMap_congr fun file hf => ?_
  obtain ⟨number, own⟩ := workspaceOf_diagnostics agree hf
  rw [own]
  exact reports_renumber number source file.text file.path

/-- Where files with one path have one text, the reports of a check are those of one file after the
other: the syntax errors of its text, read on its own under any number, each shown over that text.
They are what each file checked alone has reported, so no other file, repeated path or path that is
the key of the built-in definitions changes what is reported for a file. Nothing stands in the way of
showing an error, unless the text is longer than any that marks can be put under. -/
theorem checkFiles_separate {files : List SourceFile} (agree : OneTextPerPath files)
    (source : Int) :
    let own := fun file : SourceFile =>
      (parse source file.text).diagnostics.map (Diagnostic.render file.text file.path)
    (checkFiles files).reports = files.flatMap own ∧
    (checkFiles files).errorCount = (files.flatMap own).length ∧
    (checkFiles files).reports = files.flatMap (fun file => (checkFiles [file]).reports) ∧
    ∀ file ∈ files, file.text.length ≤ Diagnostic.maxLength →
      ∀ d ∈ (parse source file.text).diagnostics, d.obstacle? file.text = none := by
  intro own
  have reports := checkFiles_reports agree source
  have alone (file : SourceFile) : (checkFiles [file]).reports = own file := by
    rw [checkFiles_reports (oneTextPerPath_singleton file) source, List.flatMap_singleton]
  refine ⟨reports, congrArg List.length reports, ?_, fun file _ short d hd => ?_⟩
  · rw [reports]
    exact List.flatMap_congr fun file _ => (alone file).symm
  · refine Diagnostic.obstacle?_eq_none short fun span hs => ?_
    obtain ⟨-, first, order, last⟩ := parse_points_inside source file.text d hd span hs
    exact ⟨first, Int.le_trans order last⟩

/-- A directory with a type that is not closed, and with a file whose name is the key of the built-in
definitions. -/
def brokenDirectory : Directory :=
  .ofFiles [("b", "type T \x7b"), (Builtins.key, "\x7d")] []

def unclosedFile : SourceFile := ⟨"b", "type T \x7b"⟩

def misnamedFile : SourceFile := ⟨Builtins.key, "\x7d"⟩

set_option maxRecDepth 100000 in
theorem brokenDirectory_separate :
    let files := [unclosedFile, misnamedFile, unclosedFile]
    OneTextPerPath files ∧
      (checkFiles files).errorCount = 3 ∧
      (checkFiles files).reports = (checkFiles [unclosedFile]).reports ++
        ((checkFiles [misnamedFile]).reports ++ (checkFiles [unclosedFile]).reports) ∧
      misnamedFile.text.length ≤ Diagnostic.maxLength ∧
      ∀ d ∈ (parse 1 misnamedFile.text).diagnostics, d.obstacle? misnamedFile.text = none := by
  intro files
  have read : sourceFiles ((["b", Builtins.key, "b"] : List Text).map fun path =>
      (path, brokenDirectory.read path)) = .ok files := by
    rfl
  have agree := oneTextPerPath_of_read read
  have short : misnamedFile.text.length ≤ Diagnostic.maxLength := by decide
  obtain ⟨-, count, each, shown⟩ := checkFiles_separate agree 1
  refine ⟨agree, count.trans (by decide +kernel), each.trans ?_, short, shown _ ?_ short⟩
  · simp [files]
  · simp [files]

end GraphQL
