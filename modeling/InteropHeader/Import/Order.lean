import InteropHeader.Module.Naming

/-!
# The order of imports

Input:
  references to host modules and foreign submodules, and the names of both.

Algorithm:
  every reference stands for a full name, a list of segments: a host module for
  its name alone, a foreign submodule for its path from the root.  Two hosts
  compare by name.  A foreign submodule comes before a host module exactly when
  its root is smaller than the host's name.  Two foreign submodules compare
  segment by segment.  A text is smaller than another one by its first differing
  character.

  References are sorted by inserting one after the other, each from the end of
  the part already sorted and behind everything it is not smaller than; so
  equal references keep their order.

Results:
  * `compareReferences_self_foreign`: a foreign submodule equals itself, whatever its
    full name.
-/

namespace InteropHeader

section ImportOrder

variable {κ : Type} [ModuleNaming κ]

/-- The full name of a foreign module that may be imported by itself: it lies
below its root. -/
def submodulePath (names : κ) (handle : ForeignHandle) :
    Except Fault (String × String × List String) :=
  match ModuleNaming.foreignPath names handle with
  | .ok (root :: next :: rest) => .ok (root, next, rest)
  | .ok _ => .error .topLevelForeign
  | .error fault => .error fault

/-- Compares a foreign submodule with a host module. -/
def compareForeignHost (names : κ) (left : ForeignHandle) (right : HostHandle) :
    Except Fault Ordering := do
  let (root, _, _) ← submodulePath names left
  let name ← ModuleNaming.hostName names right
  return if compare root name = .lt then .lt else .gt

/-- Compares two references by the full names they stand for. -/
def compareReferences (names : κ) (left right : Reference) : Except Fault Ordering :=
  match left, right with
  | .host left, .host right => do
      let leftName ← ModuleNaming.hostName names left
      let rightName ← ModuleNaming.hostName names right
      return compare leftName rightName
  | .host left, .foreign right =>
      Ordering.swap <$> compareForeignHost names right left
  | .foreign left, .host right =>
      compareForeignHost names left right
  | .foreign left, .foreign right =>
      if left = right then
        return .eq
      else do
        let (leftRoot, leftNext, leftRest) ← submodulePath names left
        let (rightRoot, rightNext, rightRest) ← submodulePath names right
        let leftPath := leftRoot :: leftNext :: leftRest
        let rightPath := rightRoot :: rightNext :: rightRest
        if leftPath = rightPath then
          throw .sharedFullName
        else
          return compare leftPath rightPath

/-- Inserts a reference into a list that is sorted downwards, in front of the
first member that it is not smaller than. -/
def insertReference (names : κ) (ref : Reference) :
    List Reference → Except Fault (List Reference)
  | [] => return [ref]
  | last :: before => do
      match ← compareReferences names ref last with
      | .lt => return last :: (← insertReference names ref before)
      | _ => return ref :: last :: before

/-- The references from the smallest to the greatest. -/
def sortReferences (names : κ) (refs : List Reference) : Except Fault (List Reference) :=
  List.reverse <$> refs.foldlM (fun sorted ref => insertReference names ref sorted) []

theorem compareReferences_self_foreign (names : κ) (handle : ForeignHandle) :
    compareReferences names (.foreign handle) (.foreign handle) = .ok .eq := by
  simp [compareReferences, pure, Except.pure]

end ImportOrder

end InteropHeader
