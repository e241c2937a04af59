import InteropHeader.Proofs.Header.Manifest
import InteropHeader.Proofs.Manifest.Restated

/-!
# The header of a restated manifest

Input:
  a manifest that has been resolved, and one that it is restated as.

Algorithm:
  a header is printed from the texts of the declarations, from a few texts of the
  manifest, and from the import section.  Manifests that say the same have all of them in
  common.

Results:
  * `MeansSame.draft_eq`: manifests that say the same have headers printed from the same;
  * `exists_header_of_restated`: a restated manifest is resolved too, and its header is
    the same.
-/

namespace InteropHeader

/-- Of declarations only the texts are printed. -/
theorem DeclarationEntry.renderAll_eq
    {entries others : List DeclarationEntry}
    (htexts : others.map DeclarationEntry.text = entries.map DeclarationEntry.text) :
    renderAll others = renderAll entries := by
  induction entries generalizing others with
  | nil =>
      rw [List.map_eq_nil_iff.1 htexts]
  | cons entry rest ih =>
      obtain ⟨other, others, rfl, htext, hrest⟩ := List.map_eq_cons_iff.1 htexts
      rw [renderAll, renderAll, ih hrest, render, render, htext]

namespace Manifest

variable {manifest other : Manifest}

/-- With the same import section, manifests that say the same have headers printed from
the same. -/
theorem MeansSame.draft_eq
    (h : manifest.MeansSame other) (options : Header.Options) (imports : ImportSection) :
    other.draft options imports = manifest.draft options imports := by
  have hobjc : DeclarationEntry.renderAll other.objc =
      DeclarationEntry.renderAll manifest.objc :=
    DeclarationEntry.renderAll_eq (h.texts_eq .objc)
  have hcxx : DeclarationEntry.renderAll other.cxx =
      DeclarationEntry.renderAll manifest.cxx :=
    DeclarationEntry.renderAll_eq (h.texts_eq .cxx)
  rw [draft, draft, h.name_eq, h.toolchain_eq, hobjc, hcxx]

/-- Resolved manifests that say the same have the same header. -/
theorem MeansSame.exists_header
    (hsame : manifest.MeansSame other)
    {resolved restated : ResolvedManifest}
    (h : manifest.resolve = .ok resolved) (hother : other.resolve = .ok restated)
    (options : Header.Options) :
    ∃ header,
      resolved.table.header ModuleTable.main options = .ok header ∧
      restated.table.header ModuleTable.main options = .ok header := by
  obtain ⟨imports, himports, hplan⟩ := exists_isPlan_of_resolve h options.bridging
  obtain ⟨others, hothers, hplan'⟩ := exists_isPlan_of_resolve hother options.bridging
  have heq : imports = others :=
    hplan.unique (hplan'.of_meansSame hsame)
  subst heq
  refine ⟨_, header_of_resolve h himports, ?_⟩
  rw [header_of_resolve hother hothers, hsame.draft_eq]

/-- **The header depends on what a manifest says.**  However often a resolved manifest is
restated, it is resolved again, with the same bridging header of its own; and whatever
bridging header counts, and whether or not declarations for C++ alone are shown, both
have a header, and it is the same text. -/
theorem exists_header_of_restated
    {resolved : ResolvedManifest} (h : manifest.resolve = .ok resolved)
    (hrestated : Relation.ReflTransGen RestatedAs manifest other) :
    ∃ restated,
      other.resolve = .ok restated ∧
      restated.bridging = resolved.bridging ∧
      ∀ options : Header.Options,
        ∃ header,
          resolved.table.header ModuleTable.main options = .ok header ∧
          restated.table.header ModuleTable.main options = .ok header := by
  obtain ⟨hvalid, hsame⟩ := (isValid_of_resolve h).of_restated hrestated
  obtain ⟨restated, hother⟩ := exists_resolve_iff_isValid.2 hvalid
  refine ⟨restated, hother, ?_, hsame.exists_header h hother⟩
  rw [(isImage_of_resolve hother).bridging_eq, hsame.bridging_eq,
    (isImage_of_resolve h).bridging_eq]

/-- A manifest with two modules of the same name, one of them used under its `id`, and with
a module that stands for the bridging header. -/
def plain : Manifest where
  main := { name := "Foo" }
  bridging := some "Foo-Bridging.h"
  importedHeader := some "Baz"
  modules := [{ name := "Bar" }, { name := "Baz" }, { name := "Bar", id := some "Overlay" }]
  objc :=
    [{ text := "@class A;", uses := ["Bar", "Baz"] },
      { text := "@class B;", uses := ["Overlay", "Qux.Sub"] }]
  cxx := [{ text := "class C;", uses := ["Baz"] }]

/-- The manifest `plain` with keys that were other modules' keys before. -/
def rekeyed : Manifest :=
  plain.renamed
    (fun key =>
      if key = "Baz" then "Bar" else if key = "Bar" then "Overlay" else key ++ "-Module")
    { name := "Foo", id := some "Foo-Module" }
    [{ name := "Bar", id := some "Overlay" }, { name := "Baz", id := some "Bar" },
      { name := "Bar", id := some "Overlay-Module" }]

/-- The manifest `plain` after a step of every kind. -/
def reworded : Manifest where
  main := { name := "Foo", id := some "Foo-Module", exportedName := some "FooKit" }
  bridging := some "Foo-Bridging.h"
  importedHeader := some "Bar"
  modules :=
    [{ name := "Foo", id := some "Added" },
      { name := "Bar", id := some "Overlay-Module" },
      { name := "Baz", id := some "Bar" },
      { name := "Bar", id := some "Overlay" }]
  objc :=
    [{ text := "@class A;", uses := ["Qux.Sub", "Bar", "Bar"] },
      { text := "@class B;", uses := ["Overlay-Module", "Overlay"] }]
  cxx := [{ text := "class C;", uses := ["Bar"] }]

theorem plain_restatedAs_rekeyed : plain.RestatedAs rekeyed := by
  refine .rename ⟨by decide, by decide, by decide⟩ ⟨rfl, rfl, by decide⟩ ?_
  refine .cons ⟨rfl, rfl, by decide⟩ (.cons ⟨rfl, rfl, by decide⟩ (.cons ?_ .nil))
  exact ⟨rfl, rfl, by decide⟩

theorem plain_restated_reworded : Relation.ReflTransGen RestatedAs plain reworded := by
  let rearranged : Manifest := { rekeyed with objc := reworded.objc }
  let reexported : Manifest := { rearranged with main := reworded.main }
  let added : ModuleEntry := { name := "Foo", id := some "Added" }
  let extended : Manifest := { reexported with modules := reexported.modules ++ [added] }
  have hrearrange : rekeyed.RestatedAs rearranged := by
    refine .rearrange (by decide) fun use => ?_
    have hobjc : rekeyed.objc =
        [{ text := "@class A;", uses := ["Overlay", "Bar"] },
          { text := "@class B;", uses := ["Overlay-Module", "Qux.Sub"] }] := by
      decide
    simp only [Mentions, hobjc, reworded, List.mem_cons]
    grind
  have hreexport : rearranged.RestatedAs reexported :=
    .reexport ⟨rfl, rfl⟩ (List.forall₂_same.2 fun _ _ => ⟨rfl, rfl⟩)
  have hextend : reexported.RestatedAs extended :=
    .extend (fun entry hentry => by
      cases List.mem_singleton.1 hentry
      exact ⟨by decide, by decide, by decide⟩) (by decide) (by decide)
  have hpermute : extended.RestatedAs reworded :=
    .permute (by decide)
  exact .tail (.tail (.tail (.tail (.single plain_restatedAs_rekeyed) hrearrange) hreexport)
    hextend) hpermute

/-- The headers of `plain` and `reworded` are the same. -/
theorem reworded_header :
    ∃ resolved restated,
      plain.resolve = .ok resolved ∧
      reworded.resolve = .ok restated ∧
      restated.bridging = resolved.bridging ∧
      ∀ options : Header.Options,
        ∃ header,
          resolved.table.header ModuleTable.main options = .ok header ∧
          restated.table.header ModuleTable.main options = .ok header := by
  obtain ⟨resolved, h⟩ : ∃ resolved, plain.resolve = .ok resolved :=
    exists_resolve_of_kept (by decide)
  obtain ⟨restated, hrestated⟩ := exists_header_of_restated h plain_restated_reworded
  exact ⟨resolved, restated, h, hrestated⟩

end Manifest

end InteropHeader
