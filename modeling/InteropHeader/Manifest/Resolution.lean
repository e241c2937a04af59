import InteropHeader.Manifest.Basic
import InteropHeader.Manifest.Violation
import InteropHeader.Module.Table
import InteropHeader.Text.Identifier
import InteropHeader.Text.Lines

/-!
# The modules of a manifest

Input:
  a manifest.

Algorithm:
  the described modules are checked in order, the main module first; a module's
  handle is its position among them.  Then the module that stands for the
  bridging header is looked up by its key, and after it every use of every
  declaration, those for Objective-C first.  A use with a dot interns a foreign
  module.  The first rule broken ends the resolution.
-/

namespace InteropHeader

/-- A manifest turned into a table of modules. -/
structure ResolvedManifest where
  /-- The modules and the declarations of the main module. -/
  table : ModuleTable
  bridging : Option String

namespace ModuleEntry

/-- The host module that an entry describes, without declarations. -/
def toHost (entry : ModuleEntry) : HostModule :=
  { name := entry.name, exportedAs := entry.exportedName }

/-- Checks the name and the key of a module by themselves. -/
def check (entry : ModuleEntry) : Except Violation Unit :=
  if entry.name = "" then
    .error (.namelessModule entry.key)
  else if Text.isName entry.name = false then
    .error (.malformedName entry.name)
  else if entry.key = "" ∨ '.' ∈ entry.key.toList then
    .error (.malformedKey entry.key)
  else
    .ok ()

/-- Checks modules in order; a key must differ from all keys before it. -/
def checkAll (seen : List String) : List ModuleEntry → Except Violation Unit
  | [] => .ok ()
  | entry :: rest => do
      entry.check
      if entry.key ∈ seen then
        throw (.sharedKey entry.key)
      checkAll (entry.key :: seen) rest

end ModuleEntry

namespace Manifest

/-- All described host modules, the main module first. -/
def entries (manifest : Manifest) : List ModuleEntry :=
  manifest.main :: manifest.modules

/-- The keys of the described host modules. -/
def keys (manifest : Manifest) : List String :=
  manifest.entries.map ModuleEntry.key

/-- The host module with the given key. -/
def hostWithKey? (manifest : Manifest) (key : String) : Option HostHandle :=
  (manifest.keys.idxOf? key).map HostHandle.mk

/-- The declarations described for one language. -/
def declarations (manifest : Manifest) : Language → List DeclarationEntry
  | .cxx => manifest.cxx
  | .objc => manifest.objc

/-- The handle of the module that stands for the bridging header. -/
def resolveImportedHeader (manifest : Manifest) :
    Except Violation (Option HostHandle) :=
  match manifest.importedHeader with
  | none => .ok none
  | some key =>
      match manifest.hostWithKey? key with
      | some handle => .ok (some handle)
      | none => .error (.unknownHeaderModule key)

/-- The module that a use refers to. -/
def resolveUse (manifest : Manifest) (language : Language) (index : Nat)
    (raw : String) : StateT ForeignTree (Except Violation) Reference :=
  fun foreigns =>
    match UseTarget.ofText raw with
    | .key key =>
        match manifest.hostWithKey? key with
        | some handle => .ok (.host handle, foreigns)
        | none => .error (.unknownKey key language index)
    | .foreignPath path =>
        let segments := Text.pieces '.' path
        if "" ∈ segments then
          .error (.emptySegment path)
        else
          match foreigns.intern segments with
          | (extended, some handle) => .ok (.foreign handle, extended)
          | (_, none) => .error (.emptySegment path)

/-- A declaration with its uses resolved. -/
def resolveEntry (manifest : Manifest) (language : Language)
    (entry : DeclarationEntry × Nat) :
    StateT ForeignTree (Except Violation) Declaration := do
  let uses ← entry.1.uses.mapM (manifest.resolveUse language entry.2)
  return { text := entry.1.text, uses := uses }

/-- The declarations for one language with their uses resolved. -/
def resolveLanguage (manifest : Manifest) (language : Language) :
    StateT ForeignTree (Except Violation) (List Declaration) :=
  (manifest.declarations language).zipIdx.mapM (manifest.resolveEntry language)

/-- The modules of a manifest, or the first rule it breaks. -/
def resolve (manifest : Manifest) : Except Violation ResolvedManifest := do
  ModuleEntry.checkAll [] manifest.entries
  let importedHeader ← manifest.resolveImportedHeader
  let (objc, afterObjc) ← (manifest.resolveLanguage .objc).run .empty
  let (cxx, foreigns) ← (manifest.resolveLanguage .cxx).run afterObjc
  let main : HostModule :=
    { manifest.main.toHost with objc := objc, cxx := cxx }
  return {
    table := {
      hosts := (main :: manifest.modules.map ModuleEntry.toHost).toArray
      foreigns := foreigns
      importedHeader := importedHeader
      namedToolchain := manifest.toolchain
      size_pos := by simp }
    bridging := manifest.bridging }

end Manifest

end InteropHeader
