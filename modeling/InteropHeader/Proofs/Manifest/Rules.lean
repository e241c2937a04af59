import InteropHeader.Manifest.Resolution
import InteropHeader.Proofs.Module.ForeignTree
import InteropHeader.Proofs.Outcome

/-!
# The rules that manifests are resolved by

Input:
  a manifest, with any number of modules, declarations and uses.

Algorithm:
  the rules are listed one by one, without any state: the rules for each module
  in turn, the rule for the module that stands for the bridging header, and one
  rule for each use of each declaration.

Results:
  * `outcome_resolve`: resolution ends as checking the list in order does;
  * `resolve_first_broken`: a manifest is resolved exactly if it keeps every
    rule, and otherwise the first broken one is reported.
-/

namespace InteropHeader

/-- A rule, whether it is kept, and what is reported where it is not. -/
structure Rule where
  kept : Bool
  /-- What is reported where it is broken. -/
  violation : Violation
  deriving DecidableEq, Repr

namespace Rule

/-- Checks rules in order. -/
def check : List Rule → Except Violation Unit
  | [] => .ok ()
  | rule :: rest => if rule.kept then check rest else .error rule.violation

/-- The given violation is that of the first broken rule. -/
def FirstBroken (rules : List Rule) (violation : Violation) : Prop :=
  ∃ before rule after,
    rules = before ++ rule :: after ∧
    (∀ earlier ∈ before, earlier.kept = true) ∧
    rule.kept = false ∧
    rule.violation = violation

theorem check_append (first second : List Rule) :
    check (first ++ second) = (check first >>= fun _ => check second) := by
  induction first with
  | nil =>
      rfl
  | cons rule rest ih =>
      by_cases h : rule.kept
      · simp [check, h, ih]
      · simp only [List.cons_append, check, if_neg h]
        rfl

/-- A rule that is always kept changes nothing. -/
theorem check_cons_of_kept
    {rule : Rule} (h : rule.kept = true) (rest : List Rule) :
    check (rule :: rest) = check rest := by
  simp [check, h]

theorem check_eq_ok_iff {rules : List Rule} :
    check rules = .ok () ↔ ∀ rule ∈ rules, rule.kept = true := by
  induction rules with
  | nil =>
      simp [check]
  | cons rule rest ih =>
      by_cases h : rule.kept
      · simp [check, h, ih]
      · simp [check, h]

theorem check_eq_error_iff {rules : List Rule} {violation : Violation} :
    check rules = .error violation ↔ FirstBroken rules violation := by
  induction rules with
  | nil =>
      simp [check, FirstBroken]
  | cons rule rest ih =>
      by_cases h : rule.kept
      · rw [check_cons_of_kept h, ih]
        constructor
        · rintro ⟨before, broken, after, rfl, hbefore, hbroken⟩
          refine ⟨rule :: before, broken, after, rfl, ?_, hbroken⟩
          intro earlier hearlier
          rcases List.mem_cons.1 hearlier with rfl | hearlier
          · exact h
          · exact hbefore earlier hearlier
        · rintro ⟨before, broken, after, heq, hbefore, hbroken⟩
          cases before with
          | nil =>
              cases heq
              rw [h] at hbroken
              exact absurd hbroken.1 (by decide)
          | cons first others =>
              cases heq
              exact ⟨others, broken, after, rfl,
                fun earlier hearlier => hbefore earlier (by simp [hearlier]), hbroken⟩
      · have hfalse : rule.kept = false := by
          simpa using h
        constructor
        · intro hcheck
          simp only [check, if_neg h, Except.error.injEq] at hcheck
          exact ⟨[], rule, rest, rfl, by simp, hfalse, hcheck⟩
        · rintro ⟨before, broken, after, heq, hbefore, hbroken⟩
          cases before with
          | nil =>
              cases heq
              simp [check, h, hbroken.2]
          | cons first others =>
              cases heq
              exact absurd (hbefore rule (by simp)) h

end Rule

namespace ModuleEntry

/-- The rules for the name and the key of a module by themselves. -/
def rules (entry : ModuleEntry) : List Rule := [
  ⟨entry.name ≠ "", .namelessModule entry.key⟩,
  ⟨Text.isName entry.name, .malformedName entry.name⟩,
  ⟨entry.key ≠ "" ∧ '.' ∉ entry.key.toList, .malformedKey entry.key⟩]

/-- The rule that a module's key differs from the keys before it. -/
def keyRule (before : List String) (entry : ModuleEntry) : Rule :=
  ⟨entry.key ∉ before, .sharedKey entry.key⟩

/-- The rules for a module at a position among modules with the given keys. -/
def rulesAmong (keys : List String) (entry : ModuleEntry × Nat) : List Rule :=
  entry.1.rules ++ [entry.1.keyRule (keys.take entry.2)]

end ModuleEntry

namespace Manifest

/-- The rules for the modules, the main module first. -/
def moduleRules (manifest : Manifest) : List Rule :=
  manifest.main.rules ++
    (manifest.modules.zipIdx 1).flatMap (ModuleEntry.rulesAmong manifest.keys)

/-- The rule for the module that stands for the bridging header. -/
def headerRules (manifest : Manifest) : List Rule :=
  match manifest.importedHeader with
  | none => []
  | some key => [⟨key ∈ manifest.keys, .unknownHeaderModule key⟩]

/-- The rule for a use in a declaration of a language. -/
def useRule
    (manifest : Manifest) (language : Language) (index : Nat) (use : String) : Rule :=
  if '.' ∈ use.toList then
    ⟨"" ∉ Text.pieces '.' use, .emptySegment use⟩
  else
    ⟨use ∈ manifest.keys, .unknownKey use language index⟩

/-- The rules for the uses in the declarations of a language. -/
def useRules (manifest : Manifest) (language : Language) : List Rule :=
  (manifest.declarations language).zipIdx.flatMap fun (entry, index) =>
    entry.uses.map (manifest.useRule language index)

/-- All rules in the order in which they are checked. -/
def rules (manifest : Manifest) : List Rule :=
  manifest.moduleRules ++ manifest.headerRules ++
    manifest.useRules .objc ++ manifest.useRules .cxx

end Manifest

section Outcomes

/-- How a computation ends, whatever its value is. -/
def outcome {α : Type} (result : Except Violation α) : Except Violation Unit :=
  (fun _ => ()) <$> result

theorem outcome_eq_ok_iff {α : Type} {result : Except Violation α} :
    outcome result = .ok () ↔ ∃ value, result = .ok value := by
  cases result with
  | error violation =>
      simp [outcome, Functor.map, Except.map]
  | ok value =>
      simp [outcome]

theorem outcome_eq_error_iff
    {α : Type} {result : Except Violation α} {violation : Violation} :
    outcome result = .error violation ↔ result = .error violation := by
  cases result with
  | error other =>
      simp [outcome, Functor.map, Except.map]
  | ok value =>
      simp [outcome]

/-- Two steps in a row end as checking their rules in a row does. -/
theorem outcome_bind
    {α β : Type} {first : Except Violation α} {next : α → Except Violation β}
    {firstRules nextRules : List Rule}
    (hfirst : outcome first = Rule.check firstRules)
    (hnext : ∀ value, outcome (next value) = Rule.check nextRules) :
    outcome (first >>= next) = Rule.check (firstRules ++ nextRules) := by
  rw [Rule.check_append, ← hfirst]
  cases first with
  | error violation =>
      rfl
  | ok value =>
      exact hnext value

/-- A list of steps that share a state ends as checking the rules of all of them
does, if none depends on the state. -/
theorem outcome_mapM
    {σ α β : Type} {step : α → StateT σ (Except Violation) β}
    {rulesOf : α → List Rule}
    (hstep : ∀ a s, outcome ((step a).run s) = Rule.check (rulesOf a))
    (members : List α) (s : σ) :
    outcome ((members.mapM step).run s) =
      Rule.check (members.flatMap rulesOf) := by
  induction members generalizing s with
  | nil =>
      rfl
  | cons a rest ih =>
      rw [List.mapM_cons, StateT.run_bind, List.flatMap_cons]
      refine outcome_bind (hstep a s) fun value => ?_
      rw [StateT.run_bind, ← List.append_nil (rest.flatMap rulesOf)]
      exact outcome_bind (ih value.2) fun _ => rfl

end Outcomes

theorem outcome_check (entry : ModuleEntry) :
    outcome entry.check = Rule.check entry.rules := by
  unfold ModuleEntry.check ModuleEntry.rules
  by_cases hname : entry.name = ""
  · simp [hname, Rule.check, outcome, Functor.map, Except.map]
  · by_cases hident : Text.isName entry.name = false
    · simp [hname, hident, Rule.check, outcome, Functor.map, Except.map]
    · by_cases hkey : entry.key = "" ∨ '.' ∈ entry.key.toList
      · have hbroken : ¬ (entry.key ≠ "" ∧ '.' ∉ entry.key.toList) :=
          fun h => hkey.elim h.1 h.2
        simp [hname, hident, hkey, hbroken, Rule.check, outcome, Functor.map,
          Except.map]
      · have hkept := not_or.1 hkey
        simp [hname, hident, hkept, Rule.check, outcome]

/-- The rules for modules that follow others with the given keys, the last one
first. -/
theorem outcome_checkAll (seen : List String) (entries : List ModuleEntry) :
    outcome (ModuleEntry.checkAll seen entries) =
      Rule.check ((entries.zipIdx seen.length).flatMap
        (ModuleEntry.rulesAmong (seen.reverse ++ entries.map ModuleEntry.key))) := by
  induction entries generalizing seen with
  | nil =>
      rfl
  | cons entry rest ih =>
      have hstep : ModuleEntry.checkAll seen (entry :: rest) =
          (entry.check >>= fun _ =>
            (if entry.key ∈ seen then .error (.sharedKey entry.key) else .ok ()) >>=
              fun _ => ModuleEntry.checkAll (entry.key :: seen) rest) := by
        rw [ModuleEntry.checkAll]
        by_cases h : entry.key ∈ seen <;> simp only [h, if_true, if_false] <;> rfl
      have hrules : ModuleEntry.rulesAmong
          (seen.reverse ++ (entry :: rest).map ModuleEntry.key)
            (entry, seen.length) = entry.rules ++ [entry.keyRule seen] := by
        simp [ModuleEntry.rulesAmong, ModuleEntry.keyRule]
      have hkeys : (entry.key :: seen).reverse ++ rest.map ModuleEntry.key =
          seen.reverse ++ (entry :: rest).map ModuleEntry.key := by
        simp
      have hrest := ih (entry.key :: seen)
      rw [hkeys] at hrest
      rw [hstep, List.zipIdx_cons, List.flatMap_cons, hrules, List.append_assoc]
      refine outcome_bind (outcome_check entry) fun _ => ?_
      refine outcome_bind ?_ fun _ => hrest
      by_cases h : entry.key ∈ seen
      · simp [h, ModuleEntry.keyRule, Rule.check, outcome, Functor.map, Except.map]
      · simp [h, ModuleEntry.keyRule, Rule.check, outcome]

namespace Manifest

variable (manifest : Manifest)

theorem outcome_modules :
    outcome (ModuleEntry.checkAll [] manifest.entries) =
      Rule.check manifest.moduleRules := by
  have hfirst : (manifest.main.keyRule []).kept = true := by
    simp [ModuleEntry.keyRule]
  have hmain : Rule.check (ModuleEntry.rulesAmong manifest.keys (manifest.main, 0)) =
      Rule.check manifest.main.rules := by
    rw [ModuleEntry.rulesAmong, Rule.check_append, List.take_zero,
      Rule.check_cons_of_kept hfirst]
    cases Rule.check manifest.main.rules <;> rfl
  have h := outcome_checkAll [] manifest.entries
  rw [moduleRules, Rule.check_append, ← hmain, ← Rule.check_append]
  exact h

theorem hostWithKey?_eq_none_iff {key : String} :
    manifest.hostWithKey? key = none ↔ key ∉ manifest.keys := by
  simp [hostWithKey?, List.idxOf?_eq_none_iff]

theorem exists_hostWithKey {key : String} (h : key ∈ manifest.keys) :
    ∃ handle, manifest.hostWithKey? key = some handle := by
  cases hhost : manifest.hostWithKey? key with
  | none =>
      exact absurd h (manifest.hostWithKey?_eq_none_iff.1 hhost)
  | some handle =>
      exact ⟨handle, rfl⟩

theorem outcome_resolveImportedHeader :
    outcome manifest.resolveImportedHeader =
      Rule.check manifest.headerRules := by
  unfold resolveImportedHeader headerRules
  cases manifest.importedHeader with
  | none =>
      rfl
  | some key =>
      by_cases hkey : key ∈ manifest.keys
      · obtain ⟨handle, hhandle⟩ := manifest.exists_hostWithKey hkey
        simp [Rule.check, hkey, hhandle, outcome]
      · have hnone := manifest.hostWithKey?_eq_none_iff.2 hkey
        simp [Rule.check, hkey, hnone, outcome, Functor.map, Except.map]

/-- A use ends as its rule says, whatever has been interned before. -/
theorem outcome_resolveUse
    (language : Language) (index : Nat) (use : String) (foreigns : ForeignTree) :
    outcome ((manifest.resolveUse language index use).run foreigns) =
      Rule.check [manifest.useRule language index use] := by
  unfold resolveUse useRule UseTarget.ofText StateT.run
  by_cases hdot : '.' ∈ use.toList
  · simp only [hdot, if_true]
    by_cases hempty : "" ∈ Text.pieces '.' use
    · simp [hempty, Rule.check, outcome, Functor.map, Except.map]
    · have hne : Text.pieces '.' use ≠ [] := by
        simp [Text.pieces, Text.cut_ne_nil]
      obtain ⟨handle, hhandle⟩ := foreigns.exists_handle_of_ne_nil hne
      simp only [hempty, if_false]
      split
      · simp [Rule.check, outcome]
      · rename_i hnone
        rw [hnone] at hhandle
        cases hhandle
  · simp only [hdot, if_false]
    by_cases hkey : use ∈ manifest.keys
    · obtain ⟨handle, hhandle⟩ := manifest.exists_hostWithKey hkey
      simp [Rule.check, hkey, hhandle, outcome]
    · have hnone := manifest.hostWithKey?_eq_none_iff.2 hkey
      simp [Rule.check, hkey, hnone, outcome, Functor.map, Except.map]

theorem outcome_resolveEntry
    (language : Language) (entry : DeclarationEntry × Nat) (foreigns : ForeignTree) :
    outcome ((manifest.resolveEntry language entry).run foreigns) =
      Rule.check (entry.1.uses.map (manifest.useRule language entry.2)) := by
  have huses := outcome_mapM (manifest.outcome_resolveUse language entry.2)
    entry.1.uses foreigns
  rw [← List.map_eq_flatMap] at huses
  unfold resolveEntry
  rw [StateT.run_bind, ← List.append_nil (entry.1.uses.map _)]
  exact outcome_bind huses fun _ => rfl

theorem outcome_resolveLanguage
    (language : Language) (foreigns : ForeignTree) :
    outcome ((manifest.resolveLanguage language).run foreigns) =
      Rule.check (manifest.useRules language) :=
  outcome_mapM (manifest.outcome_resolveEntry language) _ foreigns

/-- Resolution ends as checking the rules in order does. -/
theorem outcome_resolve :
    outcome manifest.resolve = Rule.check manifest.rules := by
  unfold resolve rules
  rw [List.append_assoc, List.append_assoc]
  refine outcome_bind manifest.outcome_modules fun _ => ?_
  refine outcome_bind manifest.outcome_resolveImportedHeader fun _ => ?_
  refine outcome_bind (manifest.outcome_resolveLanguage .objc .empty) fun afterObjc => ?_
  rw [← List.append_nil (manifest.useRules .cxx)]
  exact outcome_bind (manifest.outcome_resolveLanguage .cxx afterObjc.2) fun _ => rfl

/-- **Resolution reports the first broken rule.**  A manifest is resolved exactly
if it keeps every rule; otherwise what is reported is the violation of the first
rule that it breaks. -/
theorem resolve_first_broken :
    ((∃ resolved, manifest.resolve = .ok resolved)
      ↔
    ∀ rule ∈ manifest.rules, rule.kept = true)
      ∧
    ∀ violation,
      manifest.resolve = .error violation
        ↔
      Rule.FirstBroken manifest.rules violation := by
  constructor
  · rw [← outcome_eq_ok_iff, outcome_resolve, Rule.check_eq_ok_iff]
  · intro violation
    rw [← outcome_eq_error_iff, outcome_resolve, Rule.check_eq_error_iff]

/-- A second module with a bad name and a repeated key is reported for its name,
and an unknown use after it is not reported. -/
example :
    resolve {
      main := { name := "Foo" }
      modules := [{ name := "1x", id := some "Foo" }]
      objc := [{ text := "", uses := ["Bar"] }] } =
        .error (.malformedName "1x") :=
  rfl

end Manifest

end InteropHeader
