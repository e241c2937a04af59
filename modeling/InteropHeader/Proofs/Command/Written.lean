import InteropHeader.Proofs.Command.Shown
import InteropHeader.Proofs.Storage.FileTree

/-!
# What a command leaves behind

Input:
  a file tree, a way of reading manifests from texts, the path of a manifest, what the user
  chooses on the command line, and the path of the output file.

Algorithm:
  the manifest is read, understood and resolved, and the header is printed, before anything
  is changed.  Then the directories around the output file are created, as far as they are
  missing, and then the file is written.

Results:
  * `ask_generate_of_tableOf`: without a header nothing is changed;
  * `endsWriting_writeOutput`: how writing a text to a file ends;
  * `generate_leavesFiles`: what `generate` changes, however it ends.
-/

namespace InteropHeader

namespace Command

variable {tree : FileTree} {request : HeaderRequest} {output : String}

section Writing

variable {text : String}

theorem perform_attempt
    {α : Type} (failure : FileError → Failure)
    (action : StateM FileTree (Except FileError α)) :
    tree.perform (attempt failure action) =
      ((action.run tree).1.mapError failure, (action.run tree).2) := by
  rw [FileTree.perform, run_attempt]
  rfl

theorem run_writeText :
    (FileAccess.writeText output text : StateM FileTree (Except FileError Unit)).run tree =
      match tree.write output text.toUTF8 with
      | .ok later => (.ok (), later)
      | .error cause => (.error cause, tree) := by
  simp only [FileAccess.writeText, StateT.run_bind, StateT.run_get, pure_bind]
  cases tree.write output text.toUTF8 <;> rfl

theorem perform_writeText :
    tree.perform (attempt (.unwritten output) (FileAccess.writeText output text)) =
      match tree.write output text.toUTF8 with
      | .ok later => (.ok (), later)
      | .error cause => (.error (.unwritten output cause), tree) := by
  rw [perform_attempt, run_writeText]
  cases tree.write output text.toUTF8 <;> rfl

theorem perform_createDirectories (directory : String) :
    tree.perform
        (attempt (.uncreated directory) (FileAccess.createDirectories directory)) =
      ((tree.createDirectories directory).1.mapError (.uncreated directory),
        (tree.createDirectories directory).2) := by
  have hrun :
      (FileAccess.createDirectories directory :
        StateM FileTree (Except FileError Unit)).run tree =
      tree.createDirectories directory := by
    simp only [FileAccess.createDirectories, StateT.run_bind, StateT.run_get, StateT.run_set,
      pure_bind]
    rfl
  rw [perform_attempt, hrun]

/-- The output file cannot be written, or its directory cannot be created. -/
def IsWriteFailure (output : String) (failure : Failure) : Prop :=
  (∃ directory cause,
    Path.parent? output = some directory ∧ failure = .uncreated directory cause) ∨
  ∃ cause, failure = .unwritten output cause

/-- How an action ends that puts a text into a file: it fails, or the file is written.  In
either case directories around the file may have been added before. -/
def EndsWriting {α : Type} (tree : FileTree) (output text : String) (answer : α)
    (result : Except Failure α × FileTree) : Prop :=
  (∃ failure later,
    result = (.error failure, later) ∧ IsWriteFailure output failure ∧
    FileTree.ExtendsBy (Path.ancestors output) tree later) ∨
  ∃ housed later,
    result = (.ok answer, later) ∧
    FileTree.ExtendsBy (Path.ancestors output) tree housed ∧
    housed.write output text.toUTF8 = .ok later

/-- The file is written once the directories around it are there. -/
theorem endsWriting_of_housed
    {housed : FileTree} (h : FileTree.ExtendsBy (Path.ancestors output) tree housed) :
    EndsWriting tree output text ()
      (housed.perform (attempt (.unwritten output) (FileAccess.writeText output text))) := by
  rw [perform_writeText]
  cases hwrite : housed.write output text.toUTF8 with
  | error cause => exact Or.inl ⟨_, housed, rfl, Or.inr ⟨cause, rfl⟩, h⟩
  | ok later => exact Or.inr ⟨housed, later, rfl, h, hwrite⟩

theorem endsWriting_writeOutput (tree : FileTree) (output text : String) :
    EndsWriting tree output text () (tree.perform (writeOutput output text)) := by
  unfold writeOutput
  split
  · exact endsWriting_of_housed (.refl _ _)
  · exact endsWriting_of_housed (.refl _ _)
  · rename_i parent hnonempty hparent
    have hextends : FileTree.ExtendsBy (Path.ancestors output) tree
        (tree.createDirectories parent).2 :=
      FileTree.extendsBy_createDirectories hparent hnonempty
    dsimp only
    rw [FileTree.perform_bind, perform_createDirectories]
    cases hcreate : (tree.createDirectories parent).1 with
    | error cause =>
        exact Or.inl ⟨_, _, rfl, Or.inl ⟨parent, cause, hparent, rfl⟩, hextends⟩
    | ok => exact endsWriting_of_housed hextends

end Writing

section Reading

variable [ManifestReader]

section Loading

variable {path : String} {content : Except FileError String}

theorem tableOf_of_unreadable {cause : FileError} (h : content = .error cause) :
    tableOf path content = .error (.unreadable path cause) := by
  rw [h]
  rfl

theorem tableOf_ok (path text : String) :
    tableOf path (.ok text) = (do
      let manifest ← (ManifestReader.ofText text).mapError (.invalid path)
      manifest.resolve.mapError (.unresolved path)) :=
  rfl

theorem tableOf_of_invalid
    {text : String} {cause : ManifestError} (h : content = .ok text)
    (hmanifest : ManifestReader.ofText text = .error cause) :
    tableOf path content = .error (.invalid path cause) := by
  rw [h, tableOf_ok, hmanifest]
  rfl

theorem tableOf_of_unresolved
    {text : String} {manifest : Manifest} {cause : Violation} (h : content = .ok text)
    (hmanifest : ManifestReader.ofText text = .ok manifest)
    (hresolve : manifest.resolve = .error cause) :
    tableOf path content = .error (.unresolved path cause) := by
  rw [h, tableOf_ok, hmanifest]
  show manifest.resolve.mapError (Failure.unresolved path) = _
  rw [hresolve]
  rfl

/-- Without a table of modules there is nothing to print and nothing to write. -/
theorem ask_generate_of_tableOf
    {failure : Failure}
    (h : tableOf request.manifest (tree.readText request.manifest) = .error failure) :
    tree.ask (.generate request (some output)) = (.error failure, tree) := by
  rw [ask_generate_output, ask_generate, (error_of_tableOf h).2]

end Loading

/-- A header that would be printed is put into the output file. -/
theorem endsWriting_generate
    {text : String} (output : String)
    (h : headerOf request (tree.readText request.manifest) = .ok text) :
    EndsWriting tree output text "" (tree.ask (.generate request (some output))) := by
  rw [ask_generate_output, ask_generate, h]
  dsimp only
  rw [FileTree.perform_bind]
  rcases endsWriting_writeOutput tree output text with
    ⟨failure, later, hresult, hends⟩ | ⟨housed, later, hresult, hends⟩
  · rw [hresult]
    exact Or.inl ⟨failure, later, rfl, hends⟩
  · rw [hresult]
    exact Or.inr ⟨housed, later, rfl, hends⟩

/-- What `generate` with an output file does to a file tree. -/
structure LeavesFiles (tree : FileTree) (request : HeaderRequest) (output : String) :
    Prop where
  /-- Where the manifest cannot be read, nothing is changed. -/
  of_unreadable : ∀ cause,
    tree.readText request.manifest = .error cause →
    tree.ask (.generate request (some output)) =
      (.error (.unreadable request.manifest cause), tree)
  /-- Nor is anything where it is no manifest. -/
  of_invalid : ∀ text cause,
    tree.readText request.manifest = .ok text → ManifestReader.ofText text = .error cause →
    tree.ask (.generate request (some output)) =
      (.error (.invalid request.manifest cause), tree)
  /-- Nor where it breaks a rule. -/
  of_unresolved : ∀ text manifest cause,
    tree.readText request.manifest = .ok text → ManifestReader.ofText text = .ok manifest →
    manifest.resolve = .error cause →
    tree.ask (.generate request (some output)) =
      (.error (.unresolved request.manifest cause), tree)
  /-- With a manifest that is resolved, a directory cannot be created or the file cannot be
  written if the command fails.  Nothing is lost then, and only directories are new. -/
  of_failed : ∀ text manifest resolved failure later,
    tree.readText request.manifest = .ok text → ManifestReader.ofText text = .ok manifest →
    manifest.resolve = .ok resolved →
    tree.ask (.generate request (some output)) = (.error failure, later) →
    IsWriteFailure output failure ∧
    FileTree.ExtendsBy (Path.ancestors output) tree later
  /-- If the command succeeds, the output file holds what would have been printed, whatever
  it held before.  Nothing else is lost or changed, and what is new is a missing directory
  around the output file. -/
  of_written : ∀ answer later,
    tree.ask (.generate request (some output)) = (.ok answer, later) →
    answer = "" ∧
    later.workingDirectory = tree.workingDirectory ∧
    ∃ header location,
      tree.ask (.generate request none) = (.ok header, tree) ∧
      later.readText output = .ok header ∧
      later.locate output = .ok location ∧
      tree.at? location ≠ some .directory ∧
      later.at? location = some (.file header.toUTF8) ∧
      ∀ other, other ≠ location →
        (∀ entry, tree.at? other = some entry → later.at? other = some entry) ∧
        ∀ entry, tree.at? other = none → later.at? other = some entry →
          entry = .directory ∧
          ∃ ancestor ∈ Path.ancestors output, later.locate ancestor = .ok other

/-- **Failed generation leaves the files alone, and a written header is the printed one.**
This holds in every file tree, however manifests are read from texts, for every request and
every path of an output file, the path of the manifest itself among them. -/
theorem generate_leavesFiles (tree : FileTree) (request : HeaderRequest) (output : String) :
    LeavesFiles tree request output where
  of_unreadable := fun _ hcontent =>
    ask_generate_of_tableOf (tableOf_of_unreadable hcontent)
  of_invalid := fun _ _ hcontent hmanifest =>
    ask_generate_of_tableOf (tableOf_of_invalid hcontent hmanifest)
  of_unresolved := fun _ _ _ hcontent hmanifest hresolve =>
    ask_generate_of_tableOf (tableOf_of_unresolved hcontent hmanifest hresolve)
  of_failed := by
    intro text manifest resolved failure later hcontent hmanifest hresolve hask
    have htable : tableOf request.manifest (tree.readText request.manifest) = .ok resolved :=
      tableOf_eq_ok_iff.2 ⟨text, manifest, hcontent, hmanifest, hresolve⟩
    obtain ⟨_, _, _, _, _, _, _, hheader⟩ := exists_plan_of_tableOf htable
    rcases endsWriting_generate output hheader with
      ⟨_, _, hresult, hends⟩ | ⟨_, _, hresult, _⟩
    · cases hask.symm.trans hresult
      exact hends
    · cases hask.symm.trans hresult
  of_written := by
    intro answer later hask
    cases hheader : headerOf request (tree.readText request.manifest) with
    | error failure =>
        rw [ask_generate_output, ask_generate, hheader] at hask
        cases hask
    | ok header =>
        rcases endsWriting_generate output hheader with
          ⟨_, _, hresult, _⟩ | ⟨housed, _, hresult, hextends, hwrite⟩
        · cases hask.symm.trans hresult
        · cases hask.symm.trans hresult
          obtain ⟨hdirectory, location, hlocate, hfree, hfile, hother⟩ :=
            FileTree.exists_location_of_write hextends hwrite
          refine ⟨rfl, hdirectory, header, location, ?_, FileTree.readText_of_write hwrite,
            hlocate, hfree, hfile, hother⟩
          rw [ask_generate, hheader]

end Reading

/-- In `lone`, the header can be written over the manifest, but no directory can be created
in its place. -/
theorem lone_leavesFiles :
    (lone.ask (.generate { manifest := "Foo.yaml" } (some "Foo.yaml"))).1 = .ok "" ∧
    (lone.ask (.generate { manifest := "Foo.yaml" } (some "Foo.yaml/Foo.h"))).1 =
      .error (.uncreated "Foo.yaml" .alreadyExists) ∧
    ∀ output, LeavesFiles lone { manifest := "Foo.yaml" } output := by
  refine ⟨?_, ?_, fun output => generate_leavesFiles lone { manifest := "Foo.yaml" } output⟩
  · decide +kernel
  · decide +kernel

end Command

end InteropHeader
