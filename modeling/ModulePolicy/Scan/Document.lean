/-
# Scans

What a scanner reports about the files of a source tree. Only the path of a
file, the targets it imports, the feature flags it mentions and the permissions
it checks matter to a policy; the rest is carried along.
-/

namespace ModulePolicy

structure ScannedDeclaration where
  kind : String := ""
  name : String
  scope : Option String := none
deriving DecidableEq

structure ScannedImport where
  target : String
  kind : String := ""
  localName : Option String := none
  imported : List String := []
deriving DecidableEq

structure ScannedFile where
  path : String
  declarations : List ScannedDeclaration := []
  imports : List ScannedImport := []
  featureFlags : List String := []
  permissions : List String := []
  warnings : List String := []
deriving DecidableEq

structure Scan where
  language : String := ""
  files : List ScannedFile := []
deriving DecidableEq

end ModulePolicy
