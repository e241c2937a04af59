import InteropHeader.Directive.MacroTable
import InteropHeader.Header.IncludeGuard

/-!
# The fixed parts of a header

Input:
  the toolchain to name, the include guard and the module name.

Algorithm:
  the opening part begins the include guard and prepares what every compiler
  needs: probes that answer zero where the compiler has none, standard includes
  for the language at hand, vector types and the standard macros.  The part
  behind the imports silences further diagnostics and attributes all that
  follows to the module.  The closing part undoes both and ends the include
  guard.
-/

namespace InteropHeader
namespace Header

/-- The scalar types with vector types: the stem of the vector's name and the
scalar. -/
def vectorScalars : List (String × String) :=
  [("float", "float"), ("double", "double"), ("int", "int"), ("uint", "unsigned int")]

/-- The numbers of elements a vector type may have. -/
def vectorWidths : List Nat :=
  [2, 3, 4]

/-- The definitions of the vector types, scalar by scalar. -/
def vectorTypedefs : List String :=
  vectorScalars.flatMap fun (stem, scalar) =>
    vectorWidths.map fun width =>
      "typedef " ++ scalar ++ " swift_" ++ stem ++ toString width ++
        "  __attribute__((__ext_vector_type__(" ++ toString width ++ ")));"

/-- The lines that open a header. -/
def openingLines (toolchain guard : String) : List String := [
  "// Generated by " ++ toolchain,
  "#ifndef " ++ guard,
  "#define " ++ guard]

/-- The probes of the compiler's features, and the first diagnostics silenced. -/
def probeLines : List String := [
  "#pragma clang diagnostic push",
  "#pragma clang diagnostic ignored \"-Wgcc-compat\"",
  "",
  "#if !defined(__has_include)",
  "# define __has_include(x) 0",
  "#endif",
  "#if !defined(__has_attribute)",
  "# define __has_attribute(x) 0",
  "#endif",
  "#if !defined(__has_feature)",
  "# define __has_feature(x) 0",
  "#endif",
  "#if !defined(__has_warning)",
  "# define __has_warning(x) 0",
  "#endif",
  "",
  "#if __has_include(<swift/objc-prologue.h>)",
  "# include <swift/objc-prologue.h>",
  "#endif",
  "",
  "#pragma clang diagnostic ignored \"-Wauto-import\""]

/-- The standard includes, by language. -/
def standardIncludes : Block :=
  .forLanguage .objc (.lines ["#include <Foundation/Foundation.h>"]) ++
    .byLanguage .cxx
      (.lines ["#include <cstdint>", "#include <cstddef>", "#include <cstdbool>"])
      (.lines ["#include <stdint.h>", "#include <stddef.h>", "#include <stdbool.h>"])

/-- The type definitions, made once for all headers. -/
def typedefLines : List String := [
  "",
  "#if !defined(SWIFT_TYPEDEFS)",
  "# define SWIFT_TYPEDEFS 1",
  "# if __has_include(<uchar.h>)",
  "#  include <uchar.h>",
  "# elif !defined(__cplusplus)",
  "typedef uint_least16_t char16_t;",
  "typedef uint_least32_t char32_t;",
  "# endif"] ++
  vectorTypedefs ++ [
  "#endif",
  ""]

/-- All that precedes the imports. -/
def opening (toolchain guard : String) : Block :=
  .all [
    .lines (openingLines toolchain guard),
    .lines probeLines,
    standardIncludes,
    .lines typedefLines,
    GuardedMacro.standardBlock]

/-- All that stands between the imports and the declarations of a module. -/
def attribution (name : String) : Block :=
  .lines [
    "#pragma clang diagnostic ignored \"-Wproperty-attribute-mismatch\"",
    "#pragma clang diagnostic ignored \"-Wduplicate-method-arg\"",
    "#if __has_warning(\"-Wpragma-clang-attribute\")",
    "# pragma clang diagnostic ignored \"-Wpragma-clang-attribute\"",
    "#endif",
    "#pragma clang diagnostic ignored \"-Wunknown-pragmas\"",
    "#pragma clang diagnostic ignored \"-Wnullability\"",
    "#pragma clang diagnostic ignored \"-Wdollar-in-identifier-extension\"",
    "",
    "#if __has_attribute(external_source_symbol)",
    "# pragma push_macro(\"any\")",
    "# undef any",
    "# pragma clang attribute push(__attribute__((external_source_symbol(" ++
      "language=\"Swift\", defined_in=\"" ++ name ++ "\",generated_declaration))), " ++
      "apply_to=any(function,enum,objc_interface,objc_category,objc_protocol))",
    "# pragma pop_macro(\"any\")",
    "#endif",
    ""]

/-- All that follows the declarations. -/
def closing : Block :=
  .lines [
    "#if __has_attribute(external_source_symbol)",
    "# pragma clang attribute pop",
    "#endif",
    "#pragma clang diagnostic pop",
    "#endif"]

end Header
end InteropHeader
