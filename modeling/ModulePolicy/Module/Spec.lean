/-
# Module specifications

What a policy declares about one module. Every list keeps the order it was
written in.

| field | meaning |
| --- | --- |
| `ownsPaths` | globs of the file paths the module owns |
| `ownsNamespaces` | starts of the names the module owns |
| `allowedCallers` | patterns of modules that may depend on it; none means all may |
| `forbiddenCallers` | patterns of modules that must not, whatever is allowed |
| `featureFlags` | flags its files may mention |
| `requiresPermissions` | permissions one of which its files must check |
| `notes` | a remark, without effect |
-/

namespace ModulePolicy

structure ModuleSpec where
  ownsPaths : List String := []
  ownsNamespaces : List String := []
  allowedCallers : List String := []
  forbiddenCallers : List String := []
  featureFlags : List String := []
  requiresPermissions : List String := []
  notes : Option String := none
deriving DecidableEq

end ModulePolicy
