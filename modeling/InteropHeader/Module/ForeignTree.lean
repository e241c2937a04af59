import InteropHeader.Module.Basic

/-!
# The foreign modules of one run

Input:
  full names of foreign modules, root first.

Algorithm:
  every module is stored once, together with the handle of its parent; a full
  name is walked from its root, and each segment either finds the module of
  that name below the current parent or adds it.

Results:
  * a parent is always stored before its children, so the walk from a module
    to its root ends; this is part of the type;
  * `intern_nil`: the empty full name adds nothing and denotes nothing.
-/

namespace InteropHeader

/-- Foreign modules in the order of their first mention. -/
structure ForeignTree where
  /-- The modules; a handle is a position in this array. -/
  modules : Array ForeignModule := #[]
  /-- A parent has a smaller handle than its child. -/
  parent_lt : ∀ (i : Nat) (h : i < modules.size) (p : ForeignHandle),
      modules[i].parent = some p → p.index < i := by
    intro i h
    exact absurd h (by simp)

namespace ForeignTree

/-- The tree without modules. -/
def empty : ForeignTree :=
  {}

/-- The number of modules. -/
abbrev size (tree : ForeignTree) : Nat :=
  tree.modules.size

/-- A parent that exists, or none. -/
def IsParent (tree : ForeignTree) (parent : Option ForeignHandle) : Prop :=
  ∀ p, parent = some p → p.index < tree.size

/-- The module a handle denotes. -/
def lookup (tree : ForeignTree) (handle : ForeignHandle) :
    Except Fault ForeignModule :=
  match tree.modules[handle.index]? with
  | some m => .ok m
  | none => .error (.outOfRange tree.size handle.index)

/-- Adds a module below a parent. -/
def push (tree : ForeignTree) (parent : Option ForeignHandle) (name : String)
    (hp : tree.IsParent parent) : ForeignTree where
  modules := tree.modules.push { name := name, parent := parent }
  parent_lt := by
    intro i h p hparent
    rw [Array.getElem_push] at hparent
    split at hparent
    · exact tree.parent_lt i _ p hparent
    · have hlt := hp p hparent
      simp only [Array.size_push] at h
      simp only [size] at hlt
      omega

@[simp] theorem size_push (tree : ForeignTree) (parent : Option ForeignHandle)
    (name : String) (hp : tree.IsParent parent) :
    (tree.push parent name hp).size = tree.size + 1 := by
  simp [push, size]

/-- The module of the given name directly below a parent. -/
def child? (tree : ForeignTree) (parent : Option ForeignHandle) (name : String) :
    Option ForeignHandle :=
  (tree.modules.findIdx? fun m => m.parent = parent && m.name = name).map
    ForeignHandle.mk

theorem child?_lt {tree : ForeignTree} {parent : Option ForeignHandle}
    {name : String} {child : ForeignHandle}
    (h : tree.child? parent name = some child) : child.index < tree.size := by
  simp only [child?, Option.map_eq_some_iff] at h
  obtain ⟨i, hi, rfl⟩ := h
  exact (Array.findIdx?_eq_some_iff_getElem.1 hi).1

/-- Finds or adds the module reached from a parent along the given segments. -/
def internBelow (tree : ForeignTree) (parent : Option ForeignHandle)
    (hp : tree.IsParent parent) :
    List String → ForeignTree × Option ForeignHandle
  | [] => (tree, parent)
  | segment :: rest =>
      match h : tree.child? parent segment with
      | some child =>
          tree.internBelow (some child)
            (fun p hpc => by cases hpc; exact child?_lt h) rest
      | none =>
          (tree.push parent segment hp).internBelow (some ⟨tree.size⟩)
            (fun p hpc => by cases hpc; simp) rest

/-- Finds or adds the module with the given full name, together with every
missing ancestor.  The empty full name denotes no module. -/
def intern (tree : ForeignTree) (path : List String) :
    ForeignTree × Option ForeignHandle :=
  tree.internBelow none (fun p hp => by simp at hp) path

@[simp] theorem intern_nil (tree : ForeignTree) :
    tree.intern [] = (tree, none) :=
  rfl

/-- The full name of a module, root first. -/
def pathAt (tree : ForeignTree) (i : Nat) (h : i < tree.size) : List String :=
  match hparent : tree.modules[i].parent with
  | none => [tree.modules[i].name]
  | some p =>
      have hlt : p.index < i := tree.parent_lt i h p hparent
      tree.pathAt p.index (Nat.lt_trans hlt h) ++ [tree.modules[i].name]
termination_by i

/-- The full name of the module a handle denotes, root first. -/
def path (tree : ForeignTree) (handle : ForeignHandle) :
    Except Fault (List String) :=
  if h : handle.index < tree.size then
    .ok (tree.pathAt handle.index h)
  else
    .error (.outOfRange tree.size handle.index)

end ForeignTree

end InteropHeader
