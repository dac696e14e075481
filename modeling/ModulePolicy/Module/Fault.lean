/-
# Faults of a policy

| fault | raised by |
| --- | --- |
| `emptyModuleId` | an identifier without characters |
| `patternTooLarge` | a pattern that the engine for patterns does not accept |
-/

namespace ModulePolicy

inductive PolicyFault
  | emptyModuleId
  | patternTooLarge (pattern : String)
deriving DecidableEq

def PolicyFault.message : PolicyFault → String
  | emptyModuleId => "Invalid module ID: module IDs cannot be empty"
  | patternTooLarge pattern =>
    "Invalid pattern '" ++ pattern ++ "': Compiled regex exceeds size limit of 10485760 bytes."

end ModulePolicy
