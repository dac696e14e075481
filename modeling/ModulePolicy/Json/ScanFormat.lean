/-
# JSON forms of scans and edges

| record | needs | left out |
| --- | --- | --- |
| scan | nothing | nothing |
| file | `path` | nothing |
| declaration | `name` | `namespace` if there is none |
| import | `from` | `alias` if there is none, `imported` if empty |
| edge | `from`, `to`, `kind` | nothing |

The kind of a declaration or an import is the field `type`. A checker also takes
the document of a scan.
-/

import ModulePolicy.Graph.PolicyGraph
import ModulePolicy.Json.Codec
import ModulePolicy.Scan.Check

namespace ModulePolicy

open Json

namespace ScannedDeclaration

def fields : List (RecordField ScannedDeclaration) :=
  [.always "type" .text kind fun d v => { d with kind := v },
   .always "name" .text name (fun d v => { d with name := v }) true,
   .optional "namespace" scope fun d v => { d with scope := v }]

def codec : Codec ScannedDeclaration := .record fields { name := "" }

end ScannedDeclaration

namespace ScannedImport

def fields : List (RecordField ScannedImport) :=
  [.always "from" .text target (fun i v => { i with target := v }) true,
   .always "type" .text kind fun i v => { i with kind := v },
   .optional "alias" localName fun i v => { i with localName := v },
   .unlessEmpty "imported" .text imported fun i v => { i with imported := v }]

def codec : Codec ScannedImport := .record fields { target := "" }

end ScannedImport

namespace ScannedFile

def fields : List (RecordField ScannedFile) :=
  [.always "path" .text path (fun f v => { f with path := v }) true,
   .always "declarations" (.list ScannedDeclaration.codec) declarations
     fun f v => { f with declarations := v },
   .always "imports" (.list ScannedImport.codec) imports fun f v => { f with imports := v },
   .always "feature_flags" (.list .text) featureFlags fun f v => { f with featureFlags := v },
   .always "permissions" (.list .text) permissions fun f v => { f with permissions := v },
   .always "warnings" (.list .text) warnings fun f v => { f with warnings := v }]

def codec : Codec ScannedFile := .record fields { path := "" }

end ScannedFile

namespace Scan

def fields : List (RecordField Scan) :=
  [.always "language" .text language fun s v => { s with language := v },
   .always "files" (.list ScannedFile.codec) files fun s v => { s with files := v }]

def codec : Codec Scan := .record fields {}

/-- The scan that a document holds. -/
def ofText (document : String) : Except Fault Scan := readAll codec.read document

/-- The document of a scan. -/
def toText (s : Scan) : String := String.ofList (codec.write s)

end Scan

/-- Checks the scan that a document holds. -/
def Checker.checkText (c : Checker) (document : String) : Except Fault CheckReport :=
  (Scan.ofText document).map c.check

def EdgeKind.codec : Codec EdgeKind := .choice EdgeKind.name [.allowed, .forbidden]

namespace Edge

def fields : List (RecordField Edge) :=
  [.always "from" .text source (fun e v => { e with source := v }) true,
   .always "to" .text target (fun e v => { e with target := v }) true,
   .always "kind" EdgeKind.codec kind (fun e v => { e with kind := v }) true]

def codec : Codec Edge := .record fields ⟨"", "", .allowed⟩

end Edge

end ModulePolicy
