import EnumLookup.Report
import EnumLookup.Text.Json

/-!
# Summaries

Resolved enums and reports as JSON.
-/

namespace EnumLookup

open Text (Json)

def Entry.json (e : Entry) : Json := .object [("name", .text e.name), ("value", .int e.value.value)]

namespace Resolved

def valuesJson (e : Resolved) : Json := .array (e.entries.map Entry.json)

def json (e : Resolved) : Json :=
  .object [("name", .text e.name), ("width", .text e.width.text), ("values", e.valuesJson)]

end Resolved

/-- A skipped declaration as JSON: its name and the wording of the fault. -/
def Skipped.json (s : Skipped) : Json := .array [.text s.name, .text s.fault.message]

/-- A report as JSON: the enums, the skipped declarations, and the names of the files. -/
def Report.json (r : Report) : Json :=
  .object [("resolved", .array (r.resolved.map Resolved.json)),
    ("skipped", .array (r.skipped.map Skipped.json)),
    ("files", .array (r.artifacts.map fun a => .text a.fileName))]

end EnumLookup
