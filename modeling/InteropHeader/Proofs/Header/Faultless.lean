import InteropHeader.Command.Header
import InteropHeader.Proofs.Header.Manifest

/-!
# Headers of resolved manifests have no faults

Input:
  a manifest that has been resolved, the bridging header given on the command line, if
  there is one, and whether declarations for C++ alone are shown.

Algorithm:
  every reference in the declarations comes from a use, and what a use denotes exists, has
  a full name, and shares it with no other foreign module.  So whichever references a
  sorting algorithm compares, it never meets one that cannot be imported.

Results:
  * `compares_of_resolve`: references compare as their full names do;
  * `exists_rendering_of_resolve`: the import section and the header are printed.
-/

namespace InteropHeader

/-- Whether a declaration of the main module, for either language, refers to a module. -/
def ModuleTable.RefersTo (table : ModuleTable) (ref : Reference) : Prop :=
  ∃ m language, table.host ModuleTable.main = .ok m ∧
    ∃ declaration ∈ m.declarations language, ref ∈ declaration.uses

namespace Manifest

variable {manifest : Manifest} {resolved : ResolvedManifest}

/-- A reference comes from a use that denotes it. -/
theorem exists_denotes_of_refersTo
    (h : manifest.resolve = .ok resolved)
    {ref : Reference} (href : resolved.table.RefersTo ref) :
    ∃ use, manifest.Denotes resolved.table.foreigns use ref := by
  obtain ⟨m, language, hm, declaration, hdeclaration, href⟩ := href
  obtain ⟨m', hm', _, himages⟩ := (isImage_of_resolve h).host_main
  cases hm.symm.trans hm'
  obtain ⟨_, _, use, _, hdenotes⟩ :=
    exists_use_of_mem_uses (himages language) hdeclaration href
  exact ⟨use, hdenotes⟩

/-- Any two references compare without a fault, and they compare as their full names
do. -/
theorem compares_of_resolve
    (h : manifest.resolve = .ok resolved)
    {left right : Reference}
    (hleft : resolved.table.RefersTo left) (hright : resolved.table.RefersTo right) :
    compareReferences resolved.table left right =
      .ok (compare (segmentsOf resolved.table left) (segmentsOf resolved.table right)) := by
  have hmem : ∀ ref, ref ∈ ReferenceSet.ofList [left, right] ↔ ref = left ∨ ref = right := by
    intro ref
    simp [ReferenceSet.mem_ofList]
  have hnamed : (ReferenceSet.ofList [left, right]).WellNamed resolved.table := by
    refine (isImage_of_resolve h).wellNamed fun ref href => ?_
    rcases (hmem ref).1 href with rfl | rfl
    · exact exists_denotes_of_refersTo h hleft
    · exact exists_denotes_of_refersTo h hright
  exact hnamed.comparesBy left ((hmem left).2 (Or.inl rfl)) right
    ((hmem right).2 (Or.inr rfl))

/-- **A resolved manifest has an import section and a header.**  Whatever bridging header
is given on the command line, and whether or not declarations for C++ are shown, both are
printed without a fault; so is any comparison of two references, which orders them by
their full names; and the walk from a foreign module to its root ends after no more steps
than there are modules up to it, with the names of its full name. -/
theorem exists_rendering_of_resolve
    (h : manifest.resolve = .ok resolved)
    (commandLine : Option String) (exposeCxx : Bool) :
    (∃ imports header,
      resolved.table.importSection ModuleTable.main
        (Command.chooseBridging commandLine resolved) = .ok imports ∧
      resolved.table.header ModuleTable.main
        { bridging := Command.chooseBridging commandLine resolved
          exposeCxx := exposeCxx } = .ok header) ∧
    (∃ key : Reference → List String, ∀ left right,
      resolved.table.RefersTo left → resolved.table.RefersTo right →
      compareReferences resolved.table left right =
        .ok (compare (key left) (key right))) ∧
    ∀ handle, handle.index < resolved.table.foreigns.size →
      ∃ names, resolved.table.foreigns.Walk handle names ∧
        names.length ≤ handle.index + 1 ∧
        resolved.table.foreigns.path handle = .ok names := by
  refine ⟨?_, ⟨segmentsOf resolved.table, fun _ _ => compares_of_resolve h⟩, ?_⟩
  · obtain ⟨_, imports, _, himports, _⟩ :=
      isImportPlan_of_resolve h (Command.chooseBridging commandLine resolved)
    exact ⟨imports, _, himports, header_of_resolve h himports⟩
  · intro handle hlt
    have hwalk := resolved.table.foreigns.walk_pathAt handle.index hlt
    exact ⟨_, hwalk, hwalk.length_le, ForeignTree.path_eq_ok_iff.2 ⟨hlt, rfl⟩⟩

/-- A manifest with foreign modules that lie inside each other, used for both
languages. -/
def layered : Manifest where
  main := { name := "Foo" }
  bridging := some "Foo-Bridging.h"
  importedHeader := some "Foo"
  modules := [{ name := "Baz" }]
  objc := [{ text := "@class A;", uses := ["Baz.Sub.Deep", "Baz", "Baz.Sub", "Foo"] }]
  cxx := [{ text := "class B;", uses := ["Baz.Sub", "Qux.Sub"] }]

/-- The import section and the header of `layered` with an empty bridging header. -/
theorem layered_rendering :
    ∃ resolved,
      layered.resolve = .ok resolved ∧
      (∃ imports header,
        resolved.table.importSection ModuleTable.main (some "") = .ok imports ∧
        resolved.table.header ModuleTable.main
          { bridging := some "", exposeCxx := true } = .ok header) ∧
      (∃ key : Reference → List String, ∀ left right,
        resolved.table.RefersTo left → resolved.table.RefersTo right →
        compareReferences resolved.table left right =
          .ok (compare (key left) (key right))) ∧
      ∀ handle, handle.index < resolved.table.foreigns.size →
        ∃ names, resolved.table.foreigns.Walk handle names ∧
          names.length ≤ handle.index + 1 ∧
          resolved.table.foreigns.path handle = .ok names := by
  obtain ⟨resolved, h⟩ : ∃ resolved, layered.resolve = .ok resolved :=
    exists_resolve_of_kept (by decide)
  exact ⟨resolved, h, exists_rendering_of_resolve h (some "") true⟩

end Manifest

end InteropHeader
