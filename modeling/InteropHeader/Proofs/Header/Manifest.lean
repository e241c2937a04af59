import InteropHeader.Proofs.Header.Layout
import InteropHeader.Proofs.Manifest.Plan

/-!
# The header of a manifest

Input:
  a manifest that has been resolved, and what the user chooses.

Algorithm:
  of the declarations only the texts are printed, so the header is printed from
  the manifest and the import section of its main module.

Results:
  * `header_of_resolve`: the main module of a resolved manifest has a header, and
    it is printed from the manifest;
  * `DeclarationEntry.kept_render`: of a printed declaration is kept what is kept of
    its text, and the empty lines behind it;
  * `tidy_draft`: what it is printed from takes up one line each, or is balanced,
    if that holds of the manifest.
-/

namespace InteropHeader

namespace Declaration

variable {declaration : Declaration}

theorem terminated_render : Text.Terminated declaration.render := by
  unfold render
  split
  · exact Text.terminated_newline _
  · exact Text.terminated_append_of_ne_empty (by decide) (by decide) _

theorem append_two_newlines (text : String) : text ++ "\n\n" = text ++ "\n" ++ "\n" := by
  rw [String.append_assoc]
  rfl

/-- Printing a declaration adds nothing but line feeds to its text. -/
theorem render_of_newline
    {P : String → Prop} (hnewline : ∀ text, P text → P (text ++ "\n"))
    (h : P declaration.text) :
    P declaration.render := by
  unfold render
  split
  · exact hnewline _ h
  · rw [append_two_newlines]
    exact hnewline _ (hnewline _ h)

end Declaration

namespace DeclarationEntry

/-- The printed text of a declaration. -/
def render (entry : DeclarationEntry) : String :=
  Declaration.render { text := entry.text, uses := [] }

/-- The printed texts of declarations. -/
def renderAll : List DeclarationEntry → String
  | [] => ""
  | entry :: rest => entry.render ++ renderAll rest

theorem terminated_render (entry : DeclarationEntry) : Text.Terminated entry.render :=
  Declaration.terminated_render

theorem balanced_render {entry : DeclarationEntry} (h : Balanced entry.text) :
    Balanced entry.render :=
  Declaration.render_of_newline (fun _ => balanced_append_newline) h

/-- The empty lines behind the printed text of a declaration; a declaration without a text
has two of them. -/
def emptyLines (entry : DeclarationEntry) : List String :=
  if entry.text = "" then ["", ""] else [""]

theorem plainLines_emptyLines (entry : DeclarationEntry) : PlainLines entry.emptyLines := by
  intro line hline
  have hempty : line = "" := by
    unfold emptyLines at hline
    split at hline <;> simpa using hline
  exact Header.plainLines_empty line (List.mem_singleton.2 hempty)

/-- A declaration is printed with its own lines and empty ones behind them. -/
theorem lines_render (entry : DeclarationEntry) :
    Text.lines entry.render = Text.lines entry.text ++ entry.emptyLines := by
  have hline : Text.lines "\n" = [""] := by
    decide
  rw [render, Declaration.render, emptyLines]
  by_cases hempty : entry.text = ""
  · rw [if_pos hempty, hempty]
    decide
  · have hterminated := Text.terminated_iff_of_ne_empty hempty
    rw [if_neg hempty]
    by_cases hend : entry.text.toList.getLast? = some '\n'
    · rw [if_pos hend, Text.lines_append (hterminated.2 hend), hline]
    · rw [if_neg hend, Declaration.append_two_newlines,
        Text.lines_append (Text.terminated_newline _),
        Text.lines_append_newline (mt hterminated.1 hend), hline]

/-- Of a printed declaration is kept what is kept of its text, and the empty lines behind
it. -/
theorem kept_render
    {truth : Truth} {entry : DeclarationEntry} (h : Balanced entry.text) :
    truth.kept entry.render = truth.kept entry.text ++ entry.emptyLines := by
  rw [Truth.kept, lines_render, Truth.keptOf_append h,
    Truth.keptOf_plain entry.plainLines_emptyLines]
  rfl

/-- Printed declarations are full lines, and balanced if they are so one by one. -/
theorem wellFormed_renderAll
    {entries : List DeclarationEntry} (h : ∀ entry ∈ entries, Balanced entry.text) :
    (Block.text (renderAll entries)).WellFormed := by
  induction entries with
  | nil =>
      exact ⟨Text.terminated_empty, balanced_empty⟩
  | cons entry rest ih =>
      obtain ⟨hterminated, hbalanced⟩ := ih fun other hother => h other (by simp [hother])
      have hentry : Balanced entry.render :=
        balanced_render (h entry (by simp))
      exact ⟨entry.terminated_render.append hterminated,
        balanced_append entry.terminated_render hentry hbalanced⟩

theorem lines_renderAll (entries : List DeclarationEntry) :
    Text.lines (renderAll entries) =
      entries.flatMap fun entry => Text.lines entry.text ++ entry.emptyLines := by
  induction entries with
  | nil =>
      rfl
  | cons entry rest ih =>
      rw [renderAll, Text.lines_append entry.terminated_render, ih, lines_render,
        List.flatMap_cons]

theorem directiveFree_render {entry : DeclarationEntry} (h : DirectiveFree entry.text) :
    DirectiveFree entry.render :=
  Declaration.render_of_newline (fun _ => DirectiveFree.append_newline) h

theorem directiveFree_renderAll
    {entries : List DeclarationEntry} (h : ∀ entry ∈ entries, DirectiveFree entry.text) :
    DirectiveFree (renderAll entries) := by
  induction entries with
  | nil =>
      exact .empty
  | cons entry rest ih =>
      have hentry : DirectiveFree entry.render :=
        directiveFree_render (h entry (by simp))
      exact hentry.append entry.terminated_render
        (ih fun other hother => h other (by simp [hother]))

end DeclarationEntry

namespace ModuleTable

/-- The header of a module with the given import section. -/
theorem header_of_importSection
    {table : ModuleTable} {handle : HostHandle} {m : HostModule}
    (hm : table.host handle = .ok m)
    {options : Header.Options} {imports : ImportSection}
    (himports : table.importSection handle options.bridging = .ok imports) :
    table.header handle options =
      .ok (Header.Draft.render {
        toolchain := table.toolchain
        name := m.name
        imports := imports
        objc := (PrintedDeclarations.ofDeclarations m.objc).text
        cxx :=
          if options.exposeCxx then (PrintedDeclarations.ofDeclarations m.cxx).text
          else "" }) := by
  have hname : ModuleNaming.hostName table handle = .ok m.name := by
    show (table.host handle).map HostModule.name = .ok m.name
    rw [hm]
    rfl
  rw [importSection_of_host hm] at himports
  have himports' :
      (ReferenceSet.ofList (PrintedDeclarations.ofDeclarations m.objc).uses).importSection
        table handle options.bridging = .ok imports :=
    himports
  simp only [header, printed, hm, Except.map, Outcome.ok_bind, Header.render,
    Header.draft, hname, himports', HostModule.declarations]
  rfl

end ModuleTable

namespace Manifest

variable {manifest : Manifest}

/-- What the header of a manifest is printed from. -/
def draft (manifest : Manifest) (options : Header.Options) (imports : ImportSection) :
    Header.Draft where
  toolchain := manifest.toolchain.getD ModuleTable.defaultToolchain
  name := manifest.main.name
  imports := imports
  objc := DeclarationEntry.renderAll manifest.objc
  cxx := if options.exposeCxx then DeclarationEntry.renderAll manifest.cxx else ""

theorem text_ofDeclarations
    {foreigns : ForeignTree} {entries : List DeclarationEntry}
    {declarations : List Declaration}
    (h : List.Forall₂ (manifest.DeclarationImage foreigns) entries declarations) :
    (PrintedDeclarations.ofDeclarations declarations).text =
      DeclarationEntry.renderAll entries := by
  induction h with
  | nil =>
      rfl
  | cons himage _ ih =>
      rw [PrintedDeclarations.ofDeclarations, ih, DeclarationEntry.renderAll,
        DeclarationEntry.render, Declaration.render, Declaration.render, himage.text_eq]

/-- The main module of a resolved manifest has a header, and it is printed from the
manifest. -/
theorem header_of_resolve
    {resolved : ResolvedManifest} (h : manifest.resolve = .ok resolved)
    {options : Header.Options} {imports : ImportSection}
    (himports :
      resolved.table.importSection ModuleTable.main options.bridging = .ok imports) :
    resolved.table.header ModuleTable.main options =
      .ok (manifest.draft options imports).render := by
  have himage := isImage_of_resolve h
  obtain ⟨m, hm, hname, himages⟩ := himage.host_main
  have hobjc : (PrintedDeclarations.ofDeclarations m.objc).text =
      DeclarationEntry.renderAll manifest.objc :=
    text_ofDeclarations (himages .objc)
  have hcxx : (PrintedDeclarations.ofDeclarations m.cxx).text =
      DeclarationEntry.renderAll manifest.cxx :=
    text_ofDeclarations (himages .cxx)
  rw [ModuleTable.header_of_importSection hm himports, hname, hobjc, hcxx,
    ModuleTable.toolchain, himage.toolchain_eq]
  rfl

/-- What a header prints into a line of its own holds no line feed: the toolchain,
the bridging header and the full names of foreign modules. -/
structure SingleLined (manifest : Manifest) (bridging : Option String) : Prop where
  toolchain : ∀ toolchain ∈ manifest.toolchain, '\n' ∉ toolchain.toList
  bridging : ∀ path ∈ bridging, '\n' ∉ path.toList
  /-- The uses that name foreign modules. -/
  uses : ∀ entry ∈ manifest.objc, ∀ use ∈ entry.uses,
    '.' ∈ use.toList → '\n' ∉ use.toList

/-- What the header of such a manifest is printed from is tidy if all printed
declarations are balanced. -/
theorem tidy_draft
    {resolved : ResolvedManifest} (h : manifest.resolve = .ok resolved)
    {options : Header.Options} {imports : ImportSection}
    (himports :
      resolved.table.importSection ModuleTable.main options.bridging = .ok imports)
    (hlines : manifest.SingleLined options.bridging)
    (hobjc : ∀ entry ∈ manifest.objc, Balanced entry.text)
    (hcxx : options.exposeCxx = true → ∀ entry ∈ manifest.cxx, Balanced entry.text) :
    (manifest.draft options imports).Tidy where
  toolchain := by
    show '\n' ∉ (manifest.toolchain.getD ModuleTable.defaultToolchain).toList
    cases htoolchain : manifest.toolchain with
    | none => decide
    | some toolchain => exact hlines.toolchain toolchain htoolchain
  name := isName_of_resolve h (List.mem_cons_self : manifest.main ∈ manifest.entries)
  statements := by
    intro statement hstatement
    rcases statement_of_resolve h himports hstatement with
      ⟨entry, hentry, rfl⟩ | ⟨entry, hentry, use, huse, hdot, rfl⟩
    · exact Text.not_mem_of_isName (isName_of_resolve h hentry)
        Text.continuesName_newline
    · exact hlines.uses entry hentry use huse hdot
  ownHeader := by
    intro ownHeader hown
    rcases ownHeader_of_resolve h himports hown with rfl | ⟨path, hpath, rfl⟩
    · have hname : '\n' ∉ manifest.main.name.toList :=
        Text.not_mem_of_isName (isName_of_resolve h (by simp [entries]))
          Text.continuesName_newline
      simp [OwnHeader.line, hname]
    · simp [OwnHeader.line, hlines.bridging path hpath]
  objc := DeclarationEntry.wellFormed_renderAll hobjc
  cxx := by
    show (Block.text (if options.exposeCxx then _ else "")).WellFormed
    by_cases hexpose : options.exposeCxx = true
    · rw [if_pos hexpose]
      exact DeclarationEntry.wellFormed_renderAll (hcxx hexpose)
    · rw [if_neg hexpose]
      exact Block.wellFormed_empty

/-- A manifest whose header has no directives in its printed declarations, and no line feed
in what it prints into a line of its own. -/
structure DirectiveFree (manifest : Manifest) (options : Header.Options) : Prop
    extends manifest.SingleLined options.bridging where
  objc : ∀ entry ∈ manifest.objc, InteropHeader.DirectiveFree entry.text
  cxx : options.exposeCxx = true →
    ∀ entry ∈ manifest.cxx, InteropHeader.DirectiveFree entry.text

namespace DirectiveFree

variable {options : Header.Options} {imports : ImportSection}

theorem draft_objc (h : manifest.DirectiveFree options) :
    InteropHeader.DirectiveFree (manifest.draft options imports).objc :=
  DeclarationEntry.directiveFree_renderAll h.objc

theorem draft_cxx (h : manifest.DirectiveFree options) :
    InteropHeader.DirectiveFree (manifest.draft options imports).cxx := by
  show InteropHeader.DirectiveFree (if options.exposeCxx then _ else "")
  by_cases hexpose : options.exposeCxx = true
  · rw [if_pos hexpose]
    exact DeclarationEntry.directiveFree_renderAll (h.cxx hexpose)
  · rw [if_neg hexpose]
    exact .empty

theorem tidy_draft
    {resolved : ResolvedManifest} (hresolve : manifest.resolve = .ok resolved)
    (himports :
      resolved.table.importSection ModuleTable.main options.bridging = .ok imports)
    (h : manifest.DirectiveFree options) :
    (manifest.draft options imports).Tidy :=
  Manifest.tidy_draft hresolve himports h.toSingleLined
    (fun entry hentry => (h.objc entry hentry).balanced)
    (fun hexpose entry hentry => (h.cxx hexpose entry hentry).balanced)

end DirectiveFree

end Manifest

end InteropHeader
