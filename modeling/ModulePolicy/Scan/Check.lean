/-
# Checking a scan

Every file belongs to the module that owns its path. An import belongs to the
owner of its target, read with dots as slashes if as written it has none.

An import from another module is checked against that module: a caller that one
of its forbidden patterns matches is forbidden, and one that none of its allowed
patterns matches is not allowed unless it lists none. Imports without an owner
lie outside the policy.

Files are checked one after the other, by path. Along the way a record is kept
of every module that requires permissions; the modules without a checked one
have their violations at the end. Violations are listed by file; within a file
those of its imports come first, then those of its flags, then missing
permission checks.
-/

import ModulePolicy.Collection.OrderedMap
import ModulePolicy.Ownership
import ModulePolicy.Scan.Document
import ModulePolicy.Scan.Violation

namespace ModulePolicy

/-- What a module asks of its callers and of its own files, its patterns
compiled. -/
structure ModuleRules where
  allowedCallers : List Glob
  forbiddenCallers : List Glob
  featureFlags : List String
  requiresPermissions : List String
deriving DecidableEq

namespace ModuleRules

def compile [PatternEngine] (spec : ModuleSpec) : Except PolicyFault ModuleRules := do
  let allowed ← spec.allowedCallers.mapM (Glob.compile .identifier)
  let forbidden ← spec.forbiddenCallers.mapM (Glob.compile .identifier)
  pure ⟨allowed, forbidden, spec.featureFlags, spec.requiresPermissions⟩

/-- The first forbidden pattern that matches a caller. -/
def forbids? (r : ModuleRules) (caller : ModuleId) : Option Glob :=
  r.forbiddenCallers.find? (·.isMatch caller.text)

/-- Whether a caller is allowed: no patterns allow everyone. -/
def admits (r : ModuleRules) (caller : ModuleId) : Bool :=
  r.allowedCallers.isEmpty || r.allowedCallers.any (·.isMatch caller.text)

/-- What is wrong with an import by one module from the module with these
rules. -/
def fault? (r : ModuleRules) (caller target : ModuleId) (imported : String) :
    Option ViolationCause :=
  match r.forbids? caller with
  | some pattern => some (.forbiddenCaller target imported pattern.source)
  | none => if r.admits caller then none else some (.callerNotAllowed target imported)

end ModuleRules

structure CheckReport where
  violations : List Violation
  unownedFiles : List String
  filesChecked : Nat
deriving DecidableEq

namespace CheckReport

def isClean (r : CheckReport) : Bool := r.violations.isEmpty

def count (r : CheckReport) (kind : ViolationKind) : Nat :=
  r.violations.countP fun v => v.kind = kind

end CheckReport

/-- What is known of a module that requires permissions: its first file, and
whether one of its files checks one of them. -/
structure PermissionRecord where
  module : ModuleId
  file : String
  isChecked : Bool
deriving DecidableEq

/-- Notes a file of a module that requires permissions. -/
def notePermission (module : ModuleId) (file : String) (isChecked : Bool)
    (records : OrderedMap PermissionRecord) : OrderedMap PermissionRecord :=
  let r := (records.get? module.text).getD ⟨module, file, false⟩
  records.insert module.text { r with isChecked := r.isChecked || isChecked }

/-- What checking files one after the other has found; the records are kept by
the text of the module. -/
structure CheckPass where
  violations : List Violation
  unownedFiles : List String
  permissions : OrderedMap PermissionRecord
deriving DecidableEq

def CheckPass.start : CheckPass := ⟨[], [], .empty⟩

/-- The files by path, those with the same path in the order of the scan. -/
def Scan.sortedFiles (scan : Scan) : List ScannedFile :=
  scan.files.mergeSort fun f g => f.path ≤ g.path

/-- A policy made ready to check scans. -/
structure Checker where
  index : OwnershipIndex
  rules : List (ModuleId × ModuleRules)
deriving DecidableEq

namespace Checker

/-- Compiles all patterns of a policy. Path globs of all modules come first,
then the callers of one module after the other; the first pattern that does not
compile is the fault. -/
def ofPolicy [PatternEngine] (p : Policy) : Except PolicyFault Checker := do
  let index ← OwnershipIndex.ofPolicy p
  let rules ← p.declarations.mapM fun d => do
    let r ← ModuleRules.compile d.2
    pure (d.1, r)
  pure ⟨index, rules⟩

def rules? (c : Checker) (id : ModuleId) : Option ModuleRules := c.rules.lookup id

/-- The module that a path or a name belongs to. -/
def moduleOf (c : Checker) (value : String) : Option ModuleId :=
  (c.index.ownerOf value).map (·.module)

/-- The module that an imported name belongs to, dots read as slashes if need
be. -/
def importOwner (c : Checker) (imported : String) : Option ModuleId :=
  match c.moduleOf imported with
  | some id => some id
  | none => if imported.toList.contains '.' then c.moduleOf (withSlashes '.' imported) else none

/-- The violation of an import in a file of a module. -/
def importViolation? (c : Checker) (file : String) (module : ModuleId) (i : ScannedImport) :
    Option Violation :=
  match c.importOwner i.target with
  | none => none
  | some target =>
    if target = module then none
    else
      match c.rules? target with
      | none => none
      | some rules => (rules.fault? module target i.target).map (⟨file, module, ·⟩)

/-- The violations of a file's imports and feature flags, the file being one of
a module with the given rules. -/
def fileViolations (c : Checker) (f : ScannedFile) (module : ModuleId) (rules : ModuleRules) :
    List Violation :=
  f.imports.filterMap (c.importViolation? f.path module) ++
    (f.featureFlags.filter (!rules.featureFlags.contains ·)).map fun flag =>
      ⟨f.path, module, .undeclaredFeatureFlag flag⟩

/-- Checks one more file. -/
def visit (c : Checker) (pass : CheckPass) (f : ScannedFile) : CheckPass :=
  match c.moduleOf f.path with
  | none => { pass with unownedFiles := pass.unownedFiles ++ [f.path] }
  | some module =>
    match c.rules? module with
    | none => pass
    | some rules =>
      { pass with
        violations := pass.violations ++ c.fileViolations f module rules
        permissions :=
          if rules.requiresPermissions.isEmpty then pass.permissions
          else notePermission module f.path
            (f.permissions.any rules.requiresPermissions.contains) pass.permissions }

/-- The violation of a module none of whose files checks a permission it
requires; it is laid to the first of them. -/
def permissionViolation? (c : Checker) (r : PermissionRecord) : Option Violation :=
  if r.isChecked then none
  else
    let required :=
      match c.rules? r.module with
      | some rules => rules.requiresPermissions
      | none => []
    some ⟨r.file, r.module, .missingPermissionCheck required⟩

/-- Checks a scan, its files in the order of their paths. -/
def check (c : Checker) (scan : Scan) : CheckReport :=
  let files := scan.sortedFiles
  let pass := files.foldl c.visit .start
  let missing := (pass.permissions.entries.map (·.2)).filterMap c.permissionViolation?
  { violations := (pass.violations ++ missing).mergeSort fun v w => v.file ≤ w.file
    unownedFiles := pass.unownedFiles
    filesChecked := files.length }

end Checker

end ModulePolicy
