/-
# Violations of a policy

| cause | a file of the module |
| --- | --- |
| `forbiddenCaller` | imports from a module that forbids it as a caller |
| `callerNotAllowed` | imports from a module that allows other callers only |
| `undeclaredFeatureFlag` | mentions a flag that the module does not declare |
| `missingPermissionCheck` | was the first of files none of which checks a required permission |
-/

import ModulePolicy.Module.Id

namespace ModulePolicy

inductive ViolationKind
  | forbiddenCaller
  | callerNotAllowed
  | undeclaredFeatureFlag
  | missingPermissionCheck
deriving DecidableEq

namespace ViolationKind

def name : ViolationKind → String
  | forbiddenCaller => "forbidden_caller"
  | callerNotAllowed => "caller_not_allowed"
  | undeclaredFeatureFlag => "undeclared_feature_flag"
  | missingPermissionCheck => "missing_permission_check"

end ViolationKind

inductive ViolationCause
  | forbiddenCaller (target : ModuleId) (imported pattern : String)
  | callerNotAllowed (target : ModuleId) (imported : String)
  | undeclaredFeatureFlag (flag : String)
  | missingPermissionCheck (required : List String)
deriving DecidableEq

/-- What a file of a module did wrong. -/
structure Violation where
  file : String
  module : ModuleId
  cause : ViolationCause
deriving DecidableEq

namespace Violation

def kind (v : Violation) : ViolationKind :=
  match v.cause with
  | .forbiddenCaller _ _ _ => .forbiddenCaller
  | .callerNotAllowed _ _ => .callerNotAllowed
  | .undeclaredFeatureFlag _ => .undeclaredFeatureFlag
  | .missingPermissionCheck _ => .missingPermissionCheck

/-- The module imported from, for violations that concern an import. -/
def target? (v : Violation) : Option ModuleId :=
  match v.cause with
  | .forbiddenCaller target _ _ => some target
  | .callerNotAllowed target _ => some target
  | .undeclaredFeatureFlag _ => none
  | .missingPermissionCheck _ => none

def message (v : Violation) : String :=
  match v.cause with
  | .forbiddenCaller target imported pattern =>
    "'" ++ v.module.text ++ "' imports '" ++ imported ++ "' but '" ++ target.text ++
      "' forbids callers matching '" ++ pattern ++ "'"
  | .callerNotAllowed target imported =>
    "'" ++ v.module.text ++ "' imports '" ++ imported ++
      "' but is not among the allowed callers of '" ++ target.text ++ "'"
  | .undeclaredFeatureFlag flag =>
    "Feature flag '" ++ flag ++ "' is not declared by module '" ++ v.module.text ++ "'"
  | .missingPermissionCheck required =>
    "Module '" ++ v.module.text ++ "' requires a permission check (" ++ commaList required ++
      ") but none of its files perform one"

end Violation

end ModulePolicy
