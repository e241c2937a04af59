import InteropHeader.Proofs.Header.Manifest

/-!
# Headers stand inside their include guard

Input:
  a manifest that has been resolved, and what the user chooses.

Algorithm:
  the lines of the header are counted through; the guard opens the first
  conditional, everything between is counted from depth one on, and the last line
  closes the guard again.

Results:
  * `exists_header_enclosed`: the header of a manifest is enclosed by the guard of
    its main module.
-/

namespace InteropHeader

/-- Lines that begin with a banner and stand inside an include guard from the second
line on to the last one. -/
structure Enclosed (banner guard : String) (content : List String) : Prop where
  banner_eq : content[0]? = some banner
  ifndef_eq : content[1]? = some ("#ifndef " ++ guard)
  define_eq : content[2]? = some ("#define " ++ guard)
  /-- From the second line up to the last but one a conditional is open. -/
  depth_pos : ∀ count, 2 ≤ count → count < content.length →
    ∃ depth, depthAfter 0 (content.take count) = some depth ∧ 1 ≤ depth
  endif_eq : content.getLast? = some "#endif"
  /-- No directive branches or ends a conditional that is not open, and behind the
  last line none is open. -/
  depth_eq : depthAfter 0 content = some 0

section Counting

variable {banner guard : String} {inner : List String}

theorem lineDepth_ifndef (guard : String) (depth : Nat) :
    lineDepth depth ("#ifndef " ++ guard) = some (depth + 1) := by
  simp [lineDepth, Directive.ofLine?_ifndef, Directive.depthBehind,
    Directive.depthAfter]

/-- Behind the line that begins the guard all lines are counted from one on. -/
theorem depthAfter_guarded
    (hbanner : Directive.ofLine? banner = none) (rest : List String) :
    depthAfter 0 (banner :: ("#ifndef " ++ guard) :: rest) = depthAfter 1 rest := by
  rw [depthAfter_cons, lineDepth_of_plain hbanner, Option.bind_some, depthAfter_cons,
    lineDepth_ifndef, Option.bind_some]

/-- Balanced lines between the two ends of a guard are enclosed by it. -/
theorem enclosed_of_balanced
    (hbanner : Directive.ofLine? banner = none) (hinner : depthAfter 0 inner = some 0) :
    Enclosed banner guard
      (banner :: ("#ifndef " ++ guard) :: ("#define " ++ guard) :: (inner ++ ["#endif"]))
    where
  banner_eq := rfl
  ifndef_eq := rfl
  define_eq := rfl
  depth_pos := by
    intro count hlow hhigh
    have hdefine : Directive.ofLine? ("#define " ++ guard) = none :=
      Directive.ofLine?_of_isPlainStart (by decide) _
    have hinside : depthAfter 0 (("#define " ++ guard) :: inner) = some 0 :=
      (depthAfter_cons _ _ _).trans (by
        rw [lineDepth_of_plain hdefine, Option.bind_some, hinner])
    obtain ⟨count, rfl⟩ := Nat.exists_eq_add_of_le' hlow
    simp only [List.length_cons, List.length_append, List.length_nil] at hhigh
    -- the last line is not among those counted
    have htake : (("#define " ++ guard) :: (inner ++ ["#endif"])).take count =
        (("#define " ++ guard) :: inner).take count := by
      rw [← List.cons_append, List.take_append_of_le_length]
      rw [List.length_cons]
      omega
    obtain ⟨depth, hdepth⟩ := exists_depthAfter_take hinside count
    have hone := depthAfter_add hdepth 1
    refine ⟨depth + 1, ?_, by omega⟩
    rw [List.take_succ_cons, List.take_succ_cons, depthAfter_guarded hbanner, htake]
    exact hone
  endif_eq := by
    simp [List.getLast?_cons]
  depth_eq := by
    have hdefine : Directive.ofLine? ("#define " ++ guard) = none :=
      Directive.ofLine?_of_isPlainStart (by decide) _
    have hone := depthAfter_add hinner 1
    rw [depthAfter_guarded hbanner, depthAfter_cons, lineDepth_of_plain hdefine,
      Option.bind_some, depthAfter_append, hone, Option.bind_some]
    decide

end Counting

theorem Header.Draft.enclosed {draft : Header.Draft} (h : draft.Tidy) :
    Enclosed draft.banner draft.guard (Text.lines draft.render) := by
  rw [Header.Draft.lines_render h]
  exact enclosed_of_balanced draft.ofLine?_banner
    (Block.balanced_render (Header.Draft.wellFormed_body h))

namespace Manifest

variable {manifest : Manifest}

/-- **The include guard encloses the whole header.**  A resolved manifest whose
single-line texts take up one line and whose printed declarations are balanced has a
header; the guard of the main module is open from the second line to the last one,
and every other conditional begins and ends inside it. -/
theorem exists_header_enclosed
    {resolved : ResolvedManifest} (h : manifest.resolve = .ok resolved)
    {options : Header.Options} (hlines : manifest.SingleLined options.bridging)
    (hobjc : ∀ entry ∈ manifest.objc, Balanced entry.text)
    (hcxx : options.exposeCxx = true → ∀ entry ∈ manifest.cxx, Balanced entry.text) :
    ∃ header,
      resolved.table.header ModuleTable.main options = .ok header ∧
      Enclosed
        ("// Generated by " ++ manifest.toolchain.getD ModuleTable.defaultToolchain)
        (Header.includeGuard manifest.main.name)
        (Text.lines header) := by
  obtain ⟨_, imports, _, himports, _⟩ := isImportPlan_of_resolve h options.bridging
  exact ⟨(manifest.draft options imports).render, header_of_resolve h himports,
    Header.Draft.enclosed (tidy_draft h himports hlines hobjc hcxx)⟩

/-- A manifest whose declarations have conditionals of their own; the last line of
the first one has no end. -/
def nested : Manifest where
  main := { name := "Foo" }
  modules := [{ name := "Bar" }]
  objc := [
    { text := "#if A\n@class X;\n# else\n@class Y;\n#endif", uses := ["Bar", "Baz.Sub"] },
    { text := "@class Z;\n" }]
  cxx := [{ text := "#ifdef B\nclass X;\n#endif\n", uses := ["Bar"] }]

/-- The header of `nested` with a bridging header and declarations for C++. -/
theorem nested_header_enclosed :
    ∃ resolved,
      nested.resolve = .ok resolved ∧
      nested.SingleLined (some "Foo-Bridging.h") ∧
      (∀ entry ∈ nested.objc, Balanced entry.text) ∧
      (∀ entry ∈ nested.cxx, Balanced entry.text) ∧
      ∃ header,
        resolved.table.header ModuleTable.main
          { bridging := some "Foo-Bridging.h", exposeCxx := true } = .ok header ∧
        Enclosed "// Generated by clang-header-gen 0.1.0" "FOO_SWIFT_H"
          (Text.lines header) := by
  obtain ⟨resolved, h⟩ : ∃ resolved, nested.resolve = .ok resolved :=
    exists_resolve_of_kept (by decide)
  have hlines : nested.SingleLined (some "Foo-Bridging.h") :=
    ⟨by decide, by decide, by decide⟩
  have hobjc : ∀ entry ∈ nested.objc, Balanced entry.text := by
    decide
  have hcxx : ∀ entry ∈ nested.cxx, Balanced entry.text := by
    decide
  have hbanner : "// Generated by " ++
      nested.toolchain.getD ModuleTable.defaultToolchain =
        "// Generated by clang-header-gen 0.1.0" := by
    decide
  have hguard : Header.includeGuard nested.main.name = "FOO_SWIFT_H" := by
    rw [← String.toList_inj, Header.includeGuard, String.toList_append,
      String.toList_map]
    decide
  refine ⟨resolved, h, hlines, hobjc, hcxx, ?_⟩
  rw [← hbanner, ← hguard]
  exact exists_header_enclosed h hlines hobjc fun _ => hcxx

end Manifest

end InteropHeader
