import InteropHeader.Proofs.Header.Manifest

/-!
# The C++ region of a header

Input:
  two manifests that differ in their C++ declarations alone, both of them resolved, and the
  bridging header.

Algorithm:
  the uses of C++ declarations are resolved behind those of the Objective-C declarations
  and extend the same tree of foreign modules, so the two tables differ.  No handle is
  printed, though: the import section is determined by what the manifest says in its
  Objective-C declarations, and of the C++ declarations the texts alone reach the header.

Results:
  * `render_eq_around_cxx`: in front of the C++ declarations, and behind them, a header does
    not depend on them;
  * `printed_of_resolve`: the printed declarations of the main module;
  * `exists_header_around_cxx`: C++ declarations stay in the C++ region.
-/

namespace InteropHeader

namespace Header.Draft

/-- What precedes the C++ region of a header. -/
def beforeCxx (draft : Draft) : String :=
  (opening draft.toolchain draft.guard).render ++
    "#if defined(__OBJC__)\n" ++ draft.imports.render ++ "#endif\n" ++
    (attribution draft.name).render ++
    "#if defined(__OBJC__)\n" ++ draft.objc ++ "#endif\n"

theorem render_eq_around_cxx (draft : Draft) :
    draft.render =
      draft.beforeCxx ++ "#if defined(__cplusplus)\n" ++ draft.cxx ++ "#endif\n" ++
        closing.render := by
  rw [draft.render_eq_parts, beforeCxx]

end Header.Draft

namespace Manifest

variable {manifest : Manifest} {resolved counterpart : ResolvedManifest}
variable {cxx : List DeclarationEntry}

/-- The printed declarations of the main module are the texts of the manifest. -/
theorem printed_of_resolve (h : manifest.resolve = .ok resolved) (language : Language) :
    ∃ contents,
      resolved.table.printed language ModuleTable.main = .ok contents ∧
      contents.text = DeclarationEntry.renderAll (manifest.declarations language) := by
  obtain ⟨m, hm, _, himages⟩ := (isImage_of_resolve h).host_main
  refine ⟨.ofDeclarations (m.declarations language), ?_,
    text_ofDeclarations (himages language)⟩
  rw [ModuleTable.printed, hm]
  rfl

/-- The manifest with other C++ declarations. -/
def withCxx (manifest : Manifest) (cxx : List DeclarationEntry) : Manifest :=
  { manifest with cxx := cxx }

/-- The C++ declarations have no part in what is to be imported. -/
theorem IsPlan.withCxx
    {header : Option String} {imports : ImportSection} (h : manifest.IsPlan header imports) :
    (manifest.withCxx cxx).IsPlan header imports :=
  ⟨h.statements_eq, h.ownHeader_eq_some_iff⟩

/-- Nor have they in what is printed in front of them. -/
theorem beforeCxx_draft_withCxx (options : Header.Options) (imports : ImportSection) :
    ((manifest.withCxx cxx).draft options imports).beforeCxx =
      (manifest.draft options imports).beforeCxx :=
  rfl

/-- The header of the main module around its printed C++ declarations. -/
theorem header_around_cxx_of_resolve
    (h : manifest.resolve = .ok resolved) {contents : PrintedDeclarations}
    (hcontents : resolved.table.printed .cxx ModuleTable.main = .ok contents)
    {bridging : Option String} {imports : ImportSection}
    (himports : resolved.table.importSection ModuleTable.main bridging = .ok imports)
    (exposeCxx : Bool) :
    resolved.table.header ModuleTable.main ⟨bridging, exposeCxx⟩ =
      .ok ((manifest.draft {} imports).beforeCxx ++ "#if defined(__cplusplus)\n" ++
        (if exposeCxx then contents.text else "") ++ "#endif\n" ++
        Header.closing.render) := by
  obtain ⟨printed, hprinted, htext⟩ := printed_of_resolve h .cxx
  cases hcontents.symm.trans hprinted
  let options : Header.Options := ⟨bridging, exposeCxx⟩
  have hcxx : (manifest.draft options imports).cxx =
      if exposeCxx then contents.text else "" := by
    rw [htext]
    rfl
  have hfront : (manifest.draft options imports).beforeCxx =
      (manifest.draft {} imports).beforeCxx :=
    rfl
  have hheader : resolved.table.header ModuleTable.main options =
      .ok (manifest.draft options imports).render :=
    header_of_resolve h himports
  rw [hheader, Header.Draft.render_eq_around_cxx, hcxx, hfront]

/-- **C++ declarations never leak out of the C++ region.**  Take two resolved manifests that
differ in nothing but their C++ declarations, and any bridging header.  Their import
sections are the same.  Where C++ declarations are hidden, so are their headers; where they
are exposed, the headers are the same in front of them and behind them, and between these
parts each header holds the printed C++ declarations of its own manifest. -/
theorem exists_header_around_cxx
    (h : manifest.resolve = .ok resolved)
    (hother : (manifest.withCxx cxx).resolve = .ok counterpart)
    (bridging : Option String) :
    counterpart.bridging = resolved.bridging ∧
    (∃ imports,
      resolved.table.importSection ModuleTable.main bridging = .ok imports ∧
      counterpart.table.importSection ModuleTable.main bridging = .ok imports) ∧
    (∃ header,
      resolved.table.header ModuleTable.main
        { bridging := bridging, exposeCxx := false } = .ok header ∧
      counterpart.table.header ModuleTable.main
        { bridging := bridging, exposeCxx := false } = .ok header) ∧
    ∃ front back contents others,
      resolved.table.printed .cxx ModuleTable.main = .ok contents ∧
      counterpart.table.printed .cxx ModuleTable.main = .ok others ∧
      resolved.table.header ModuleTable.main
        { bridging := bridging, exposeCxx := true } =
          .ok (front ++ "#if defined(__cplusplus)\n" ++ contents.text ++ "#endif\n" ++ back) ∧
      counterpart.table.header ModuleTable.main
        { bridging := bridging, exposeCxx := true } =
          .ok (front ++ "#if defined(__cplusplus)\n" ++ others.text ++ "#endif\n" ++ back) := by
  obtain ⟨imports, himports, hplan⟩ := exists_isPlan_of_resolve h bridging
  obtain ⟨imports', himports', hplan'⟩ := exists_isPlan_of_resolve hother bridging
  have hsame : imports' = imports :=
    hplan'.unique hplan.withCxx
  subst hsame
  obtain ⟨contents, hcontents, _⟩ := printed_of_resolve h .cxx
  obtain ⟨others, hothers, _⟩ := printed_of_resolve hother .cxx
  have hheader := header_around_cxx_of_resolve h hcontents himports
  have hheader' := header_around_cxx_of_resolve hother hothers himports'
  rw [beforeCxx_draft_withCxx] at hheader'
  refine ⟨?_, ⟨imports', himports, himports'⟩, ⟨_, hheader false, hheader' false⟩,
    _, _, contents, others, hcontents, hothers, hheader true, hheader' true⟩
  rw [(isImage_of_resolve hother).bridging_eq, (isImage_of_resolve h).bridging_eq]
  rfl

/-- A manifest whose C++ declarations mention modules that nothing else mentions, the
underlying module among them. -/
def bilingual : Manifest where
  main := { name := "Foo" }
  modules := [{ name := "Bar" }, { name := "Foo", id := some "Foo-Clang" }]
  objc := [{ text := "@class A;", uses := ["Baz.Sub"] }]
  cxx := [{ text := "class B;", uses := ["Bar", "Foo-Clang", "Baz.Sub.Deep"] }]

/-- Other C++ declarations for it. -/
def otherCxx : List DeclarationEntry := [
  { text := "class C;", uses := ["Qux.Sub", "Foo"] },
  { text := "class D;\n" }]

/-- The headers of `bilingual` with the C++ declarations that it has and with others. -/
theorem bilingual_header_around_cxx :
    ∃ resolved counterpart header front back,
      bilingual.resolve = .ok resolved ∧
      (bilingual.withCxx otherCxx).resolve = .ok counterpart ∧
      resolved.table.header ModuleTable.main {} = .ok header ∧
      counterpart.table.header ModuleTable.main {} = .ok header ∧
      resolved.table.header ModuleTable.main { exposeCxx := true } =
        .ok (front ++ "#if defined(__cplusplus)\n" ++ "class B;\n\n" ++ "#endif\n" ++ back) ∧
      counterpart.table.header ModuleTable.main { exposeCxx := true } =
        .ok (front ++ "#if defined(__cplusplus)\n" ++ "class C;\n\nclass D;\n\n" ++
          "#endif\n" ++ back) := by
  obtain ⟨resolved, h⟩ : ∃ resolved, bilingual.resolve = .ok resolved :=
    exists_resolve_of_kept (by decide)
  obtain ⟨counterpart, hother⟩ :
      ∃ counterpart, (bilingual.withCxx otherCxx).resolve = .ok counterpart :=
    exists_resolve_of_kept (by decide)
  obtain ⟨_, _, ⟨header, hheader, hheader'⟩, front, back, contents, others, hcontents,
    hothers, hexposed, hexposed'⟩ := exists_header_around_cxx h hother none
  obtain ⟨printed, hprinted, htext⟩ := printed_of_resolve h .cxx
  obtain ⟨printed', hprinted', htext'⟩ := printed_of_resolve hother .cxx
  cases hcontents.symm.trans hprinted
  cases hothers.symm.trans hprinted'
  have hrendered : DeclarationEntry.renderAll bilingual.cxx = "class B;\n\n" := by
    decide
  have hrendered' :
      DeclarationEntry.renderAll otherCxx = "class C;\n\nclass D;\n\n" := by
    decide
  rw [htext, declarations, hrendered] at hexposed
  rw [htext', declarations, withCxx, hrendered'] at hexposed'
  exact ⟨resolved, counterpart, header, front, back, h, hother, hheader, hheader', hexposed,
    hexposed'⟩

end Manifest

end InteropHeader
