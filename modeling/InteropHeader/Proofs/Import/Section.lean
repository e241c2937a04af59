import InteropHeader.Import.Section
import InteropHeader.Proofs.Import.Order

/-!
# What an import section holds

Input:
  a set of references in which every reference can be imported, the module that
  the import section belongs to, and the bridging header, if there is one.

Results:
  * `IsImportPlan` says what an import section has to hold, without sorting:
    which names are imported, in which order, and which header is included;
  * `isImportPlan_of_sorted`: the references in order make an import section, and it
    holds this;
  * `isImportPlan_of_wellNamed`: so the import section of such references exists;
  * `IsImportPlan.unique`: no other import section does.
-/

namespace InteropHeader

/-- What an import statement names. -/
inductive ImportTarget
  | host (name : String)
  /-- A foreign submodule, by its full name. -/
  | foreign (path : List String)
  deriving DecidableEq, Repr

namespace ImportTarget

/-- The full name that imports are ordered by. -/
def segments : ImportTarget → List String
  | host name => [name]
  | foreign path => path

/-- The statement that imports a target. -/
def statement : ImportTarget → ImportStatement
  | host name => ⟨name, .host⟩
  | foreign path => ⟨Text.join '.' path, .foreign⟩

/-- The targets whose host names have not been seen. -/
def unseen (seen : List String) : List ImportTarget → List ImportTarget
  | [] => []
  | host name :: rest =>
      if name ∈ seen then
        unseen seen rest
      else
        host name :: unseen (name :: seen) rest
  | foreign path :: rest => foreign path :: unseen seen rest

theorem mem_unseen
    {target : ImportTarget} {seen : List String} {targets : List ImportTarget} :
    target ∈ unseen seen targets
      ↔
    target ∈ targets ∧ ∀ name ∈ seen, target ≠ host name := by
  induction targets generalizing seen with
  | nil =>
      simp [unseen]
  | cons first rest ih =>
      cases first with
      | host name =>
          by_cases hseen : name ∈ seen
          · rw [unseen, if_pos hseen, ih, List.mem_cons]
            constructor
            · rintro ⟨hmem, hnot⟩
              exact ⟨Or.inr hmem, hnot⟩
            · rintro ⟨rfl | hmem, hnot⟩
              · exact absurd rfl (hnot name hseen)
              · exact ⟨hmem, hnot⟩
          · rw [unseen, if_neg hseen, List.mem_cons, ih, List.mem_cons]
            constructor
            · rintro (rfl | ⟨hmem, hnot⟩)
              · refine ⟨Or.inl rfl, ?_⟩
                rintro other hother heq
                cases heq
                exact hseen hother
              · exact ⟨Or.inr hmem, fun other h => hnot other (by simp [h])⟩
            · rintro ⟨rfl | hmem, hnot⟩
              · exact Or.inl rfl
              · by_cases heq : target = host name
                · exact Or.inl heq
                · refine Or.inr ⟨hmem, ?_⟩
                  intro other hother
                  rcases List.mem_cons.1 hother with rfl | hother
                  · exact heq
                  · exact hnot other hother
      | foreign path =>
          rw [unseen, List.mem_cons, ih, List.mem_cons]
          constructor
          · rintro (rfl | ⟨hmem, hnot⟩)
            · exact ⟨Or.inl rfl, by simp⟩
            · exact ⟨Or.inr hmem, hnot⟩
          · rintro ⟨rfl | hmem, hnot⟩
            · exact Or.inl rfl
            · exact Or.inr ⟨hmem, hnot⟩

/-- Targets that stand in order, where only a host name may be repeated. -/
def Precedes (first second : ImportTarget) : Prop :=
  first.segments < second.segments ∨
    ∃ name, first = host name ∧ second = host name

/-- Without the repeated host names the order is strict. -/
theorem unseen_increasing
    {seen : List String} {targets : List ImportTarget}
    (h : targets.Pairwise Precedes) :
    (unseen seen targets).Pairwise fun a b => a.segments < b.segments := by
  induction targets generalizing seen with
  | nil =>
      simp [unseen]
  | cons first rest ih =>
      rw [List.pairwise_cons] at h
      obtain ⟨hfirst, hrest⟩ := h
      cases first with
      | host name =>
          by_cases hseen : name ∈ seen
          · rw [unseen, if_pos hseen]
            exact ih hrest
          · rw [unseen, if_neg hseen, List.pairwise_cons]
            refine ⟨?_, ih hrest⟩
            intro target htarget
            obtain ⟨hmem, hnot⟩ := mem_unseen.1 htarget
            rcases hfirst target hmem with hlt | ⟨other, heq, htarget⟩
            · exact hlt
            · cases heq
              exact absurd htarget (hnot name (by simp))
      | foreign path =>
          rw [unseen, List.pairwise_cons]
          refine ⟨?_, ih hrest⟩
          intro target htarget
          rcases hfirst target (mem_unseen.1 htarget).1 with hlt | ⟨other, heq, _⟩
          · exact hlt
          · cases heq

theorem nodup_of_increasing
    {targets : List ImportTarget}
    (h : targets.Pairwise fun a b => a.segments < b.segments) :
    targets.Nodup := by
  refine h.imp ?_
  rintro a b hlt rfl
  exact List.lt_irrefl _ hlt

end ImportTarget

/-- Import sections are equal if they import the same targets in order and include the
same header. -/
theorem ImportSection.eq_of_increasing
    {first second : ImportSection} {targets others : List ImportTarget}
    (hfirst : first.statements = targets.map ImportTarget.statement)
    (hsecond : second.statements = others.map ImportTarget.statement)
    (htargets : targets.Pairwise fun a b => a.segments < b.segments)
    (hothers : others.Pairwise fun a b => a.segments < b.segments)
    (hmem : ∀ target, target ∈ targets ↔ target ∈ others)
    (hown : ∀ ownHeader, first.ownHeader = some ownHeader ↔
      second.ownHeader = some ownHeader) :
    first = second := by
  have hperm : targets.Perm others := by
    rw [List.perm_ext_iff_of_nodup]
    · exact hmem
    · exact ImportTarget.nodup_of_increasing htargets
    · exact ImportTarget.nodup_of_increasing hothers
  have hsame : targets = others :=
    hperm.eq_of_pairwise
      (fun _ _ _ _ hab hba =>
        absurd (List.lt_trans hab hba) (List.lt_irrefl _))
      htargets hothers
  have hheader : first.ownHeader = second.ownHeader :=
    Option.ext hown
  cases first
  cases second
  simp_all

namespace ImportRole

/-- What a role imports. -/
def target? : ImportRole → Option ImportTarget
  | host name => some (.host name)
  | foreign path => some (.foreign path)
  | _ => none

end ImportRole

theorem statementsFor_eq_map_unseen
    (seen : List String) (roles : List ImportRole) :
    ImportSection.statementsFor seen roles =
      (ImportTarget.unseen seen (roles.filterMap ImportRole.target?)).map
        ImportTarget.statement := by
  induction roles generalizing seen with
  | nil =>
      rfl
  | cons role rest ih =>
      cases role with
      | itself =>
          exact ih seen
      | underlying =>
          exact ih seen
      | namesake =>
          exact ih seen
      | host name =>
          by_cases hseen : name ∈ seen
          · simpa [ImportSection.statementsFor, ImportRole.target?,
              ImportTarget.unseen, hseen] using ih seen
          · simp [ImportSection.statementsFor, ImportRole.target?,
              ImportTarget.unseen, hseen, ih, ImportTarget.statement]
      | foreign path =>
          simp [ImportSection.statementsFor, ImportRole.target?,
            ImportTarget.unseen, ih, ImportTarget.statement]

section Plans

variable {κ : Type} [ModuleNaming κ]

/-- Whether a host module is the underlying module.  It is another module than
the one the header is written for: without a bridging header one of the same
name, with one the module that stands for the header's contents. -/
def IsUnderlying
    (names : κ) (own : HostHandle) (header : Option String)
    (handle : HostHandle) : Prop :=
  handle ≠ own ∧
    match header with
    | none =>
        ModuleNaming.hostName names handle = ModuleNaming.hostName names own
    | some _ => ModuleNaming.importedHeader names = some handle

/-- What a reference is imported as. -/
def ImportedAs
    (names : κ) (own : HostHandle) (header : Option String) :
    Reference → ImportTarget → Prop
  | .host handle, .host name =>
      handle ≠ own ∧
      ¬ IsUnderlying names own header handle ∧
      ModuleNaming.hostName names handle = .ok name ∧
      ModuleNaming.hostName names own ≠ .ok name
  | .foreign handle, .foreign path =>
      ModuleNaming.foreignPath names handle = .ok path
  | _, _ => False

/-- The header that stands for the underlying module. -/
def IsOwnHeader
    (names : κ) (own : HostHandle) : Option String → OwnHeader → Prop
  | none, .umbrella name => ModuleNaming.hostName names own = .ok name
  | some path, .bridging included => included = path
  | _, _ => False

/-- What the import section for a set of references has to hold. -/
structure IsImportPlan
    (references : ReferenceSet) (names : κ) (own : HostHandle)
    (header : Option String) (imports : ImportSection) : Prop where
  /-- The statements import what the references are imported as, nothing else,
  each once, in the order of full names. -/
  statements_eq :
    ∃ targets : List ImportTarget,
      imports.statements = targets.map ImportTarget.statement ∧
      (targets.Pairwise fun a b => a.segments < b.segments) ∧
      ∀ target, target ∈ targets ↔
        ∃ ref ∈ references, ImportedAs names own header ref target
  /-- The own header is included exactly if the underlying module is referred
  to. -/
  ownHeader_eq_some_iff :
    ∀ ownHeader, imports.ownHeader = some ownHeader ↔
      IsOwnHeader names own header ownHeader ∧
        ∃ handle, .host handle ∈ references ∧
          IsUnderlying names own header handle

/-- A set of references in which every reference can be imported. -/
structure ReferenceSet.WellNamed
    (references : ReferenceSet) (names : κ) : Prop where
  host_named : ∀ handle, .host handle ∈ references →
    ∃ name, ModuleNaming.hostName names handle = .ok name
  /-- Every foreign module lies below its root. -/
  foreign_nested : ∀ handle, .foreign handle ∈ references →
    ∃ path, ModuleNaming.foreignPath names handle = .ok path ∧ 2 ≤ path.length
  path_injective : ∀ first second path,
    .foreign first ∈ references → .foreign second ∈ references →
    ModuleNaming.foreignPath names first = .ok path →
    ModuleNaming.foreignPath names second = .ok path →
    first = second

namespace ReferenceSet

variable {references : ReferenceSet} {names : κ}

theorem WellNamed.exists_fullName
    (h : references.WellNamed names)
    {ref : Reference} (href : ref ∈ references) :
    ∃ path, fullName names ref = .ok path := by
  cases ref with
  | host handle =>
      obtain ⟨name, hname⟩ := h.host_named handle href
      exact ⟨[name], fullName_host_eq_ok_iff.2 ⟨name, hname, rfl⟩⟩
  | foreign handle =>
      obtain ⟨path, hpath⟩ := h.foreign_nested handle href
      exact ⟨path, fullName_foreign_eq_ok_iff.2 hpath⟩

end ReferenceSet

/-- The full name of a reference, where it has one. -/
def segmentsOf (names : κ) (ref : Reference) : List String :=
  (fullName names ref).toOption.getD []

theorem segmentsOf_eq
    {names : κ} {ref : Reference} {path : List String}
    (h : fullName names ref = .ok path) :
    segmentsOf names ref = path := by
  simp [segmentsOf, h, Except.toOption]

theorem ReferenceSet.WellNamed.comparesBy
    {references : ReferenceSet} {names : κ}
    (h : references.WellNamed names) :
    ComparesBy names (segmentsOf names) references.members := by
  intro a ha b hb
  obtain ⟨pathA, hpathA⟩ := h.exists_fullName ha
  obtain ⟨pathB, hpathB⟩ := h.exists_fullName hb
  rw [segmentsOf_eq hpathA, segmentsOf_eq hpathB]
  refine compareReferences_of_fullName hpathA hpathB ?_
  rintro f g rfl rfl rfl
  exact h.path_injective f g pathA ha hb
    (fullName_foreign_eq_ok_iff.1 hpathA).1
    (fullName_foreign_eq_ok_iff.1 hpathB).1

/-- What is imported has the full name of the reference to it. -/
theorem fullName_of_importedAs
    {names : κ} {own : HostHandle} {header : Option String}
    {ref : Reference} {target : ImportTarget} {path : List String}
    (h : ImportedAs names own header ref target)
    (hpath : fullName names ref = .ok path) :
    target.segments = path := by
  cases ref with
  | host handle =>
      cases target with
      | host name =>
          obtain ⟨_, _, hname, _⟩ := h
          obtain ⟨other, hother, rfl⟩ := fullName_host_eq_ok_iff.1 hpath
          rw [hname] at hother
          cases hother
          rfl
      | foreign path =>
          exact h.elim
  | foreign handle =>
      cases target with
      | host name =>
          exact h.elim
      | foreign own =>
          have hown : ModuleNaming.foreignPath names handle = .ok own := h
          rw [(fullName_foreign_eq_ok_iff.1 hpath).1] at hown
          exact (Except.ok.inj hown).symm

section Roles

variable {names : κ} {own : HostHandle} {ownName : String} (header : Option String)
  (hown : ModuleNaming.hostName names own = .ok ownName)
include hown

theorem isUnderlying_of_named
    {handle : HostHandle} {name : String}
    (hne : handle ≠ own)
    (hname : ModuleNaming.hostName names handle = .ok name) :
    ∃ decision,
      ImportRole.isUnderlying names ownName header handle = .ok decision ∧
      (decision = true ↔ IsUnderlying names own header handle) := by
  cases header with
  | none =>
      refine ⟨name == ownName, ?_, ?_⟩
      · simp only [ImportRole.isUnderlying, hname, Outcome.map_ok]
      · simp [IsUnderlying, hne, hname, hown]
  | some path =>
      refine ⟨ModuleNaming.importedHeader names == some handle, rfl, ?_⟩
      simp [IsUnderlying, hne]

/-- Every reference that can be imported plays a part, and the part says what it
is imported as. -/
theorem ofReference_of_fullName
    {ref : Reference} {path : List String}
    (hpath : fullName names ref = .ok path) :
    ∃ role,
      ImportRole.ofReference names own ownName header ref = .ok role ∧
      (role = .underlying ↔
        ∃ handle, ref = .host handle ∧ IsUnderlying names own header handle) ∧
      ∀ target, role.target? = some target ↔
        ImportedAs names own header ref target := by
  cases ref with
  | host handle =>
      obtain ⟨name, hname, rfl⟩ := fullName_host_eq_ok_iff.1 hpath
      by_cases hself : handle = own
      · refine ⟨.itself, ?_, ?_, ?_⟩
        · simp only [ImportRole.ofReference, hself, if_true]
          rfl
        · simp [IsUnderlying, hself]
        · intro target
          cases target <;> simp [ImportRole.target?, ImportedAs, hself]
      · obtain ⟨decision, hdecision, hiff⟩ :=
          isUnderlying_of_named header hown hself hname
        cases decision with
        | true =>
            have hunder := hiff.1 rfl
            refine ⟨.underlying, ?_, by simp [hunder], ?_⟩
            · simp only [ImportRole.ofReference, hself, hdecision, if_false,
                Outcome.ok_bind, if_true]
              rfl
            · intro target
              cases target <;> simp [ImportRole.target?, ImportedAs, hunder]
        | false =>
            have hunder : ¬ IsUnderlying names own header handle := by
              simpa using hiff
            by_cases hsame : name = ownName
            · refine ⟨.namesake, ?_, by simp [hunder], ?_⟩
              · simp only [ImportRole.ofReference, hself, hdecision, if_false,
                  Outcome.ok_bind, hname, hsame, Bool.false_eq_true, if_true]
                rfl
              · intro target
                cases target <;>
                  simp [ImportRole.target?, ImportedAs, hname, hown, hsame]
            · refine ⟨.host name, ?_, by simp [hunder], ?_⟩
              · simp only [ImportRole.ofReference, hself, hdecision, if_false,
                  Outcome.ok_bind, hname, hsame, Bool.false_eq_true]
                rfl
              · intro target
                cases target with
                | host other =>
                    simp only [ImportRole.target?, ImportedAs, hname, hown,
                      hself, hunder, Option.some.injEq, ImportTarget.host.injEq,
                      Except.ok.injEq, ne_eq, not_false_eq_true, true_and]
                    constructor
                    · rintro rfl
                      exact ⟨rfl, Ne.symm hsame⟩
                    · exact And.left
                | foreign other =>
                    simp [ImportRole.target?, ImportedAs]
  | foreign handle =>
      obtain ⟨hforeign, hlength⟩ := fullName_foreign_eq_ok_iff.1 hpath
      match path, hlength with
      | root :: next :: rest, _ =>
          refine ⟨.foreign (root :: next :: rest), ?_, by simp, ?_⟩
          · simp only [ImportRole.ofReference,
              submodulePath_eq_ok_iff.2 hforeign, Outcome.ok_bind]
            rfl
          · intro target
            cases target with
            | host other =>
                simp [ImportRole.target?, ImportedAs]
            | foreign other =>
                simp only [ImportRole.target?, ImportedAs, hforeign,
                  Option.some.injEq, ImportTarget.foreign.injEq,
                  Except.ok.injEq]

end Roles

/-- The part that a reference plays, where it plays one. -/
def roleOf
    (names : κ) (own : HostHandle) (ownName : String) (header : Option String)
    (ref : Reference) : ImportRole :=
  (ImportRole.ofReference names own ownName header ref).toOption.getD .itself

section Assembly

variable {references : ReferenceSet} {names : κ} {own : HostHandle}
  {ownName : String} {header : Option String}

/-- Different references that stand in order are imported in order, unless both
are host modules of one name. -/
theorem ReferenceSet.WellNamed.precedes
    (hnamed : references.WellNamed names)
    {a b : Reference} (ha : a ∈ references) (hb : b ∈ references) (hne : a ≠ b)
    (hle : (compare (segmentsOf names a) (segmentsOf names b)).isLE)
    {s t : ImportTarget}
    (hs : ImportedAs names own header a s)
    (ht : ImportedAs names own header b t) :
    ImportTarget.Precedes s t := by
  obtain ⟨pathA, hpathA⟩ := hnamed.exists_fullName ha
  obtain ⟨pathB, hpathB⟩ := hnamed.exists_fullName hb
  rw [segmentsOf_eq hpathA, segmentsOf_eq hpathB] at hle
  have hsegA := fullName_of_importedAs hs hpathA
  have hsegB := fullName_of_importedAs ht hpathB
  unfold ImportTarget.Precedes
  rw [hsegA, hsegB]
  by_cases hlt : compare pathA pathB = .lt
  · exact Or.inl (compare_segments_eq_lt_iff.1 hlt)
  · have heq : pathA = pathB := by
      rw [← Std.LawfulEqOrd.compare_eq_iff_eq (α := List String)]
      cases h : compare pathA pathB <;> simp_all
    subst heq
    right
    cases a with
    | host first =>
        cases b with
        | host second =>
            obtain ⟨name, _, hname⟩ := fullName_host_eq_ok_iff.1 hpathA
            subst hname
            cases s with
            | host n =>
                cases t with
                | host m =>
                    cases hsegA
                    cases hsegB
                    exact ⟨name, rfl, rfl⟩
                | foreign path =>
                    exact ht.elim
            | foreign path =>
                exact hs.elim
        | foreign second =>
            exact absurd hpathA (fullName_foreign_ne_host hpathB)
    | foreign first =>
        cases b with
        | host second =>
            exact absurd hpathB (fullName_foreign_ne_host hpathA)
        | foreign second =>
            have hfirst := fullName_foreign_eq_ok_iff.1 hpathA
            have hsecond := fullName_foreign_eq_ok_iff.1 hpathB
            have hsame :=
              hnamed.path_injective first second pathA ha hb hfirst.1 hsecond.1
            exact absurd (congrArg Reference.foreign hsame) hne

/-- The roles of sorted references make the import section that the references
call for. -/
theorem isImportPlan_ofRoles
    (hown : ModuleNaming.hostName names own = .ok ownName)
    (hnamed : references.WellNamed names)
    {sorted : List Reference} (hperm : sorted.Perm references.members)
    (hsorted : sorted.Pairwise fun a b =>
      (compare (segmentsOf names a) (segmentsOf names b)).isLE)
    {role : Reference → ImportRole}
    (hunderlying : ∀ ref ∈ references, role ref = .underlying ↔
      ∃ handle, ref = .host handle ∧ IsUnderlying names own header handle)
    (htarget : ∀ ref ∈ references, ∀ target, (role ref).target? = some target ↔
      ImportedAs names own header ref target) :
    IsImportPlan references names own header
      (ImportSection.ofRoles ownName header (sorted.map role)) := by
  have hmem : ∀ ref, ref ∈ sorted ↔ ref ∈ references := fun ref => hperm.mem_iff
  constructor
  · refine ⟨_, statementsFor_eq_map_unseen [] (sorted.map role), ?_, ?_⟩
    · apply ImportTarget.unseen_increasing
      rw [List.filterMap_map, List.pairwise_filterMap]
      have hnodup : sorted.Nodup := hperm.nodup_iff.2 references.nodup
      refine (hsorted.and hnodup).imp_of_mem ?_
      rintro a b ha hb ⟨hle, hne⟩ s hs t ht
      have ha := (hmem a).1 ha
      have hb := (hmem b).1 hb
      exact hnamed.precedes ha hb hne hle
        ((htarget a ha s).1 hs) ((htarget b hb t).1 ht)
    · intro target
      rw [ImportTarget.mem_unseen, List.filterMap_map, List.mem_filterMap]
      constructor
      · rintro ⟨⟨ref, href, hrole⟩, _⟩
        have href := (hmem ref).1 href
        exact ⟨ref, href, (htarget ref href target).1 hrole⟩
      · rintro ⟨ref, href, himported⟩
        refine ⟨⟨ref, (hmem ref).2 href, ?_⟩, by simp⟩
        exact (htarget ref href target).2 himported
  · intro ownHeader
    have hrole : .underlying ∈ sorted.map role ↔
        ∃ handle, .host handle ∈ references ∧
          IsUnderlying names own header handle := by
      rw [List.mem_map]
      constructor
      · rintro ⟨ref, href, hrole⟩
        have href := (hmem ref).1 href
        obtain ⟨handle, rfl, hunder⟩ := (hunderlying ref href).1 hrole
        exact ⟨handle, href, hunder⟩
      · rintro ⟨handle, href, hunder⟩
        exact ⟨.host handle, (hmem _).2 href,
          (hunderlying _ href).2 ⟨handle, rfl, hunder⟩⟩
    have hheader : ImportSection.ownHeaderFor ownName header = ownHeader ↔
        IsOwnHeader names own header ownHeader := by
      cases header <;> cases ownHeader <;>
        simp [ImportSection.ownHeaderFor, IsOwnHeader, hown, eq_comm]
    rw [← hrole, ← hheader]
    unfold ImportSection.ofRoles
    by_cases h : .underlying ∈ sorted.map role
    · simp [h]
    · simp [h]

/-- Sorted references all play a part, and the parts make the import section that the
references call for. -/
theorem isImportPlan_of_sorted
    (hown : ModuleNaming.hostName names own = .ok ownName)
    (hnamed : references.WellNamed names)
    {sorted : List Reference} (hperm : sorted.Perm references.members)
    (hsorted : sorted.Pairwise fun a b =>
      (compare (segmentsOf names a) (segmentsOf names b)).isLE) :
    ∃ roles,
      sorted.mapM (ImportRole.ofReference names own ownName header) = .ok roles ∧
      IsImportPlan references names own header
        (ImportSection.ofRoles ownName header roles) := by
  have hroles : ∀ ref ∈ references,
      ImportRole.ofReference names own ownName header ref =
        .ok (roleOf names own ownName header ref) ∧
      (roleOf names own ownName header ref = .underlying ↔
        ∃ handle, ref = .host handle ∧ IsUnderlying names own header handle) ∧
      ∀ target,
        (roleOf names own ownName header ref).target? = some target ↔
        ImportedAs names own header ref target := by
    intro ref href
    obtain ⟨path, hpath⟩ := hnamed.exists_fullName href
    obtain ⟨role, hrole, hspec⟩ := ofReference_of_fullName header hown hpath
    have hroleOf : roleOf names own ownName header ref = role := by
      simp [roleOf, hrole, Except.toOption]
    rw [hroleOf]
    exact ⟨hrole, hspec⟩
  refine ⟨_, Outcome.mapM_eq_ok_map fun ref href => (hroles ref (hperm.mem_iff.1 href)).1,
    isImportPlan_ofRoles hown hnamed hperm hsorted (fun ref href => (hroles ref href).2.1)
      (fun ref href => (hroles ref href).2.2)⟩

/-- The import section of references that can all be imported exists, and it is
the one they call for. -/
theorem isImportPlan_of_wellNamed
    (hown : ModuleNaming.hostName names own = .ok ownName)
    (hnamed : references.WellNamed names) (bridging : Option String) :
    ∃ imports,
      references.importSection names own bridging = .ok imports ∧
      IsImportPlan references names own (nonemptyHeader bridging) imports := by
  obtain ⟨sorted, hsort, hperm, hsorted⟩ :=
    sortReferences_of_compares hnamed.comparesBy
  obtain ⟨roles, hroles, hplan⟩ := isImportPlan_of_sorted hown hnamed hperm hsorted
  refine ⟨_, ?_, hplan⟩
  simp only [ReferenceSet.importSection, hown, hsort, Outcome.ok_bind, hroles]
  rfl

/-- The references determine what their import section holds. -/
theorem IsImportPlan.unique
    {first second : ImportSection}
    (hfirst : IsImportPlan references names own header first)
    (hsecond : IsImportPlan references names own header second) :
    first = second := by
  obtain ⟨targets, hstatements, hincreasing, hmem⟩ := hfirst.statements_eq
  obtain ⟨others, hstatements', hincreasing', hmem'⟩ := hsecond.statements_eq
  refine ImportSection.eq_of_increasing hstatements hstatements' hincreasing hincreasing'
    (fun target => (hmem target).trans (hmem' target).symm) fun ownHeader => ?_
  rw [hfirst.ownHeader_eq_some_iff, hsecond.ownHeader_eq_some_iff]

/-- **The import section is the one that the references call for.**  References
that can all be imported have an import section, and what the references call
for holds of it and of no other one. -/
theorem exists_importSection_unique_plan
    (hown : ModuleNaming.hostName names own = .ok ownName)
    (hnamed : references.WellNamed names) (bridging : Option String) :
    ∃ imports,
      references.importSection names own bridging = .ok imports ∧
      ∀ other,
        IsImportPlan references names own (nonemptyHeader bridging) other ↔
          other = imports := by
  obtain ⟨imports, himports, hplan⟩ :=
    isImportPlan_of_wellNamed hown hnamed bridging
  refine ⟨imports, himports, fun other => ⟨?_, ?_⟩⟩
  · intro hother
    exact hother.unique hplan
  · rintro rfl
    exact hplan

end Assembly

end Plans

/-- Two modules named `Foo`, two named `Bar`, and a foreign submodule. -/
def namesakeTable : NameTable where
  hosts := ["Foo", "Bar", "Foo", "Bar"]
  foreigns := [["Baz", "Sub"]]
  importedHeader := some ⟨3⟩
  toolchain := ""

/-- References to all modules of `namesakeTable`. -/
def namesakeReferences : ReferenceSet :=
  .ofList [.host ⟨2⟩, .foreign ⟨0⟩, .host ⟨3⟩, .host ⟨0⟩, .host ⟨1⟩]

/-- An empty bridging header is none, and the other `Foo` is the underlying
module. -/
theorem namesakes_importSection_unique_plan :
    namesakeReferences.WellNamed namesakeTable ∧
    ∃ imports,
      namesakeReferences.importSection namesakeTable ⟨0⟩ (some "") =
        .ok imports ∧
      ∀ other,
        IsImportPlan namesakeReferences namesakeTable ⟨0⟩
          (nonemptyHeader (some "")) other ↔ other = imports := by
  have hmem : ∀ ref, ref ∈ namesakeReferences ↔
      ref ∈ [.host ⟨2⟩, .foreign ⟨0⟩, .host ⟨3⟩, .host ⟨0⟩, .host ⟨1⟩] := by
    intro ref
    unfold namesakeReferences ReferenceSet.ofList
    rw [ReferenceSet.mem_extend]
    exact or_iff_right List.not_mem_nil
  have hnamed : namesakeReferences.WellNamed namesakeTable := by
    constructor
    · intro handle h
      rw [hmem] at h
      simp only [List.mem_cons, Reference.host.injEq, reduceCtorEq,
        List.not_mem_nil, or_false, false_or] at h
      rcases h with rfl | rfl | rfl | rfl <;> exact ⟨_, rfl⟩
    · intro handle h
      rw [hmem] at h
      simp only [List.mem_cons, Reference.foreign.injEq, reduceCtorEq,
        List.not_mem_nil, or_false, false_or] at h
      subst h
      exact ⟨["Baz", "Sub"], rfl, by decide⟩
    · intro first second path hfirst hsecond _ _
      rw [hmem] at hfirst hsecond
      simp only [List.mem_cons, Reference.foreign.injEq, reduceCtorEq,
        List.not_mem_nil, or_false, false_or] at hfirst hsecond
      rw [hfirst, hsecond]
  exact ⟨hnamed, exists_importSection_unique_plan rfl hnamed (some "")⟩

example :
    (namesakeReferences.importSection namesakeTable ⟨0⟩ (some "")).toOption =
      some ⟨[⟨"Bar", .host⟩, ⟨"Baz.Sub", .foreign⟩], some (.umbrella "Foo")⟩ := by
  decide

end InteropHeader
