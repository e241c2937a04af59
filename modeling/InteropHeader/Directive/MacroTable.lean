import InteropHeader.Directive.Macro

/-!
# The macros of a header

Every header defines the macros of one fixed table, in the order of the table.
Each entry is guarded by its own name, so the macro that it is named for keeps a
definition from the including file.  Two of the macros stand behind the guard of
another one: `SWIFT_PASTE_HELPER` is defined wherever `SWIFT_PASTE` is not, and
`SWIFT_ENUM_NAMED` wherever `SWIFT_ENUM` is not.  There they replace what the
including file has defined.
-/

namespace InteropHeader
namespace GuardedMacro

/-- The macros that the declarations of a header are written with. -/
def standard : List GuardedMacro := [
  ⟨"SWIFT_PASTE", "", .verbatim [
    "# define SWIFT_PASTE_HELPER(x, y) x##y",
    "# define SWIFT_PASTE(x, y) SWIFT_PASTE_HELPER(x, y)"]⟩,
  ⟨"SWIFT_METATYPE", "(X)", .value "Class"⟩,
  ⟨"SWIFT_CLASS_PROPERTY", "(...)", .choice "__has_feature(objc_class_property)"
    "__VA_ARGS__"
    ""⟩,
  ⟨"SWIFT_RUNTIME_NAME", "(X)", .choice "__has_attribute(objc_runtime_name)"
    "__attribute__((objc_runtime_name(X)))"
    ""⟩,
  ⟨"SWIFT_COMPILE_NAME", "(X)", .choice "__has_attribute(swift_name)"
    "__attribute__((swift_name(X)))"
    ""⟩,
  ⟨"SWIFT_METHOD_FAMILY", "(X)", .choice "__has_attribute(objc_method_family)"
    "__attribute__((objc_method_family(X)))"
    ""⟩,
  ⟨"SWIFT_NOESCAPE", "", .choice "__has_attribute(noescape)"
    "__attribute__((noescape))"
    ""⟩,
  ⟨"SWIFT_RELEASES_ARGUMENT", "", .choice "__has_attribute(ns_consumed)"
    "__attribute__((ns_consumed))"
    ""⟩,
  ⟨"SWIFT_WARN_UNUSED_RESULT", "", .choice "__has_attribute(warn_unused_result)"
    "__attribute__((warn_unused_result))"
    ""⟩,
  ⟨"SWIFT_NORETURN", "", .choice "__has_attribute(noreturn)"
    "__attribute__((noreturn))"
    ""⟩,
  ⟨"SWIFT_CLASS_EXTRA", "", .value ""⟩,
  ⟨"SWIFT_PROTOCOL_EXTRA", "", .value ""⟩,
  ⟨"SWIFT_ENUM_EXTRA", "", .value ""⟩,
  ⟨"SWIFT_CLASS", "(SWIFT_NAME)", .choice "__has_attribute(objc_subclassing_restricted)"
    "SWIFT_RUNTIME_NAME(SWIFT_NAME) __attribute__((objc_subclassing_restricted)) SWIFT_CLASS_EXTRA"
    "SWIFT_RUNTIME_NAME(SWIFT_NAME) SWIFT_CLASS_EXTRA"⟩,
  ⟨"SWIFT_CLASS_NAMED", "(SWIFT_NAME)", .choice "__has_attribute(objc_subclassing_restricted)"
    "__attribute__((objc_subclassing_restricted)) SWIFT_COMPILE_NAME(SWIFT_NAME) SWIFT_CLASS_EXTRA"
    "SWIFT_COMPILE_NAME(SWIFT_NAME) SWIFT_CLASS_EXTRA"⟩,
  ⟨"SWIFT_RESILIENT_CLASS", "(SWIFT_NAME)", .choice "__has_attribute(objc_class_stub)"
    "SWIFT_CLASS(SWIFT_NAME) __attribute__((objc_class_stub))"
    "SWIFT_CLASS(SWIFT_NAME)"⟩,
  ⟨"SWIFT_PROTOCOL", "(SWIFT_NAME)", .value "SWIFT_RUNTIME_NAME(SWIFT_NAME) SWIFT_PROTOCOL_EXTRA"⟩,
  ⟨"SWIFT_PROTOCOL_NAMED", "(SWIFT_NAME)", .value "SWIFT_COMPILE_NAME(SWIFT_NAME) SWIFT_PROTOCOL_EXTRA"⟩,
  ⟨"SWIFT_EXTENSION", "(M)", .value "SWIFT_PASTE(M##_Swift_, __LINE__)"⟩,
  ⟨"OBJC_DESIGNATED_INITIALIZER", "", .choice "__has_attribute(objc_designated_initializer)"
    "__attribute__((objc_designated_initializer))"
    ""⟩,
  ⟨"SWIFT_ENUM_ATTR", "(_extensibility)", .choice "__has_attribute(enum_extensibility)"
    "__attribute__((enum_extensibility(_extensibility)))"
    ""⟩,
  ⟨"SWIFT_ENUM", "", .verbatim [
    "# define SWIFT_ENUM(_type, _name, _extensibility) enum _name : _type _name; enum SWIFT_ENUM_ATTR(_extensibility) SWIFT_ENUM_EXTRA _name : _type",
    "# if __has_feature(generalized_swift_name)",
    "#  define SWIFT_ENUM_NAMED(_type, _name, SWIFT_NAME, _extensibility) enum _name : _type _name SWIFT_COMPILE_NAME(SWIFT_NAME); enum SWIFT_COMPILE_NAME(SWIFT_NAME) SWIFT_ENUM_ATTR(_extensibility) SWIFT_ENUM_EXTRA _name : _type",
    "# else",
    "#  define SWIFT_ENUM_NAMED(_type, _name, SWIFT_NAME, _extensibility) SWIFT_ENUM(_type, _name, _extensibility)",
    "# endif"]⟩,
  ⟨"SWIFT_UNAVAILABLE", "", .value "__attribute__((unavailable))"⟩,
  ⟨"SWIFT_UNAVAILABLE_MSG", "(msg)", .value "__attribute__((unavailable(msg)))"⟩,
  ⟨"SWIFT_AVAILABILITY", "(plat, ...)", .value "__attribute__((availability(plat, __VA_ARGS__)))"⟩,
  ⟨"SWIFT_WEAK_IMPORT", "", .value "__attribute__((weak_import))"⟩,
  ⟨"SWIFT_DEPRECATED", "", .value "__attribute__((deprecated))"⟩,
  ⟨"SWIFT_DEPRECATED_MSG", "(...)", .value "__attribute__((deprecated(__VA_ARGS__)))"⟩,
  ⟨"SWIFT_DEPRECATED_OBJC", "(Msg)", .choice "__has_feature(attribute_diagnose_if_objc)"
    "__attribute__((diagnose_if(1, Msg, \"warning\")))"
    "SWIFT_DEPRECATED_MSG(Msg)"⟩,
  ⟨"IBSegueAction", "", .valueFor .objc ""⟩,
  ⟨"SWIFT_EXTERN", "", .verbatim [
    "# if defined(__cplusplus)",
    "#  define SWIFT_EXTERN extern \"C\"",
    "# else",
    "#  define SWIFT_EXTERN extern",
    "# endif"]⟩,
  ⟨"SWIFT_CALL", "", .value "__attribute__((swiftcall))"⟩,
  ⟨"SWIFT_INDIRECT_RESULT", "", .value "__attribute__((swift_indirect_result))"⟩,
  ⟨"SWIFT_CONTEXT", "", .value "__attribute__((swift_context))"⟩,
  ⟨"SWIFT_ERROR_RESULT", "", .value "__attribute__((swift_error_result))"⟩,
  ⟨"SWIFT_NOEXCEPT", "", .choiceFor .cxx "noexcept" ""⟩,
  ⟨"SWIFT_C_INLINE_THUNK", "", .choice "__has_attribute(always_inline) && __has_attribute(nodebug)"
    "__attribute__((always_inline)) __attribute__((nodebug))"
    ""⟩,
  ⟨"SWIFT_INLINE_THUNK", "", .verbatimFor .cxx [
    "# if !defined(SWIFT_INLINE_THUNK)",
    "#  define SWIFT_INLINE_THUNK inline SWIFT_C_INLINE_THUNK",
    "# endif"]⟩
]

/-- The entry of the standard table with the given name, and its position. -/
def find? (name : String) : Option (Nat × GuardedMacro) :=
  (standard.zipIdx.find? fun entry => entry.1.name = name).map Prod.swap

/-- The definitions of all standard macros. -/
def standardBlock : Block :=
  .all (standard.map block)

end GuardedMacro
end InteropHeader
