/-!
# The include guard of a header

The guard of a module is its name with ASCII letters in upper case, followed by
a fixed suffix; letters outside ASCII stay as they are.  So the guards of two
modules are equal exactly when the names differ at most in the case of ASCII
letters.
-/

namespace InteropHeader
namespace Header

/-- The end of every include guard. -/
def guardSuffix : String :=
  "_SWIFT_H"

/-- The include guard of the module with the given name. -/
def includeGuard (name : String) : String :=
  name.map Char.toUpper ++ guardSuffix

theorem includeGuard_eq_iff {first second : String} :
    includeGuard first = includeGuard second ↔
      first.map Char.toUpper = second.map Char.toUpper := by
  constructor
  · intro h
    have := congrArg String.toList h
    simp only [includeGuard, String.toList_append, List.append_cancel_right_eq] at this
    exact String.toList_inj.1 this
  · intro h
    simp [includeGuard, h]

end Header
end InteropHeader
