/-
# JSON documents lose nothing

Specifications, edges, scans and what scans are made of are records, and the
fields of each carry it over from its blank (`lossless_codec`):

| what is left out | comes back as |
| --- | --- |
| `notes`, `namespace`, `alias` if there are none | none |
| `imported` if it is empty | empty |

So a value is read back from its document whatever texts and lists it holds, and
checking the document of a scan is checking the scan
(`documents_lose_nothing`).
-/

import ModulePolicy.Json.PolicyFormat
import ModulePolicy.Json.ScanFormat
import ModulePolicy.Proofs.Json.Record

namespace ModulePolicy

open Json

namespace ModuleSpec

theorem lossless_codec : codec.Lossless :=
  .record (by decide) fun _ =>
    .cons (.always (.list .text)) <| .cons (.always (.list .text)) <|
      .cons (.always (.list .text)) <| .cons (.always (.list .text)) <|
        .cons (.always (.list .text)) <| .cons (.always (.list .text)) <|
          .cons (.optional rfl) .nil

end ModuleSpec

namespace ScannedDeclaration

theorem lossless_codec : codec.Lossless :=
  .record (by decide) fun _ =>
    .cons (.always .text) <| .cons (.always .text) <| .cons (.optional rfl) .nil

end ScannedDeclaration

namespace ScannedImport

theorem lossless_codec : codec.Lossless :=
  .record (by decide) fun _ =>
    .cons (.always .text) <| .cons (.always .text) <| .cons (.optional rfl) <|
      .cons (.unlessEmpty .text rfl) .nil

end ScannedImport

namespace ScannedFile

theorem lossless_codec : codec.Lossless :=
  .record (by decide) fun _ =>
    .cons (.always .text) <| .cons (.always (.list ScannedDeclaration.lossless_codec)) <|
      .cons (.always (.list ScannedImport.lossless_codec)) <| .cons (.always (.list .text)) <|
        .cons (.always (.list .text)) <| .cons (.always (.list .text)) .nil

end ScannedFile

namespace Scan

theorem lossless_codec : codec.Lossless :=
  .record (by decide) fun _ =>
    .cons (.always .text) <| .cons (.always (.list ScannedFile.lossless_codec)) .nil

theorem ofText_toText (s : Scan) : ofText s.toText = .ok s := lossless_codec.readAll_write s

end Scan

theorem EdgeKind.lossless_codec : codec.Lossless := .choice fun kind => by cases kind <;> decide

theorem Edge.lossless_codec : codec.Lossless :=
  .record (by decide) fun _ =>
    .cons (.always .text) <| .cons (.always .text) <| .cons (.always EdgeKind.lossless_codec) .nil

/-- Every value is read back from the text that is written for it. -/
def Json.Codec.RoundTrips {α : Type} (c : Codec α) : Prop :=
  ∀ a, readAll c.read (String.ofList (c.write a)) = .ok a

/-- **Documents lose nothing.** Scans, files, declarations, imports, module
specifications and edges are read back as they were written. So whatever the
checker, the document of a scan has the report of the scan. -/
theorem documents_lose_nothing :
    Scan.codec.RoundTrips ∧ ScannedFile.codec.RoundTrips ∧ ScannedDeclaration.codec.RoundTrips ∧
      ScannedImport.codec.RoundTrips ∧ ModuleSpec.codec.RoundTrips ∧ Edge.codec.RoundTrips ∧
        ∀ (c : Checker) (s : Scan), c.checkText s.toText = .ok (c.check s) := by
  refine ⟨Scan.lossless_codec.readAll_write, ScannedFile.lossless_codec.readAll_write,
    ScannedDeclaration.lossless_codec.readAll_write, ScannedImport.lossless_codec.readAll_write,
    ModuleSpec.lossless_codec.readAll_write, Edge.lossless_codec.readAll_write, fun c s => ?_⟩
  rw [Checker.checkText, Scan.ofText_toText]
  rfl

end ModulePolicy
