import Weave.Bridge.Message
import Weave.Proofs.Json.Compact
import Weave.Proofs.Text.Lines

/-!
# Requests on the wire

A request is one line whatever the sources hold that it carries, so that the lines of what a bridge
is sent are the requests, one by one (`lines_join_line`). Read as JSON, the line of an execute
request gives the sources back as they are (`line_execute`).
-/

namespace Weave.Request

open Json (tree)

/-- The text of a request, without the newline that ends it. -/
def text (request : Request) : String :=
  request.toJson.write .compact

/-- A request holds no floats, so that its text spells it exactly. -/
theorem exact_toJson (request : Request) : request.toJson.Exact := by
  cases request with
  | execute sources =>
    have hcells : Json.Exact (.array (sources.map .string)) := by
      refine .array fun cell hcell => ?_
      obtain ⟨source, -, rfl⟩ := List.mem_map.1 hcell
      exact .string source
    exact .object (List.forall_iff_forall_mem.1 ⟨.string "execute", hcells⟩)
  | shutdown => exact .object (List.forall_mem_singleton.2 (.string "shutdown"))

/-! ## One line for each request -/

/-- Newlines in the sources are escaped, so a request takes up a single line. -/
theorem newline_not_mem_text (request : Request) : '\n' ∉ request.text.toList := by
  intro h
  exact absurd (request.exact_toJson.le_of_mem_write_compact h) (by decide)

theorem return_not_mem_text (request : Request) : '\r' ∉ request.text.toList := by
  intro h
  exact absurd (request.exact_toJson.le_of_mem_write_compact h) (by decide)

/-- Cut at its newlines, what a bridge is sent falls into the requests. -/
theorem lines_join_line (requests : List Request) :
    Text.lines (String.join (requests.map line)) = requests.map text := by
  have hsent : String.join (requests.map line) = Text.unlines "\n" (requests.map text) := by
    rw [Text.unlines, List.map_map]
    rfl
  rw [hsent, Text.lines_unlines_newline]
  · intro sent hsent
    obtain ⟨request, -, rfl⟩ := List.mem_map.1 hsent
    exact request.newline_not_mem_text
  · intro sent hsent
    obtain ⟨request, -, rfl⟩ := List.mem_map.1 hsent
    exact request.return_not_mem_text

/-! ## Read as JSON -/

/-- A bridge that reads the line gets what it would get from the record itself. -/
theorem read?_line (request : Request) :
    Json.read? request.line = (tree request.toJson).value? Json.depthLimit := by
  have hline : request.line.toList = (request.toJson.write .compact).toList ++ ['\n'] :=
    String.toList_append
  have hread : Json.Tree.read? request.line.toList = some (tree request.toJson) := by
    rw [hline]
    exact request.exact_toJson.read?_write Json.Layout.spaced_compact
      (List.forall_mem_singleton.2 rfl)
  rw [Json.read?, hread]
  rfl

/-- An execute request is a single line, and this line spells an object with the type `execute` and
the sources in their order. Reading puts the two fields in order. -/
theorem line_execute (sources : List String) :
    (∃ text : String, '\n' ∉ text.toList ∧ (execute sources).line = text ++ "\n") ∧
      Json.read? (execute sources).line
        = some (.object
          [("cells", .array (sources.map .string)), ("type", .string "execute")]) := by
  refine ⟨⟨(execute sources).text, newline_not_mem_text _, rfl⟩, ?_⟩
  have hcells : Json.Kept 126 (.array (sources.map .string)) := by
    refine .array fun cell hcell => ?_
    obtain ⟨source, -, rfl⟩ := List.mem_map.1 hcell
    exact .string 125 source
  have hvalue : (tree (execute sources).toJson).value? Json.depthLimit
      = some (.object (Json.sortFields
          [("type", .string "execute"), ("cells", .array (sources.map .string))])) :=
    Json.value?_tree_object (List.forall_iff_forall_mem.1 ⟨rfl, Json.value?_tree hcells⟩)
  have hsort (kind cells : Json) :
      Json.sortFields [("type", kind), ("cells", cells)] = [("cells", cells), ("type", kind)] := by
    have hlt : "cells" < "type" := by decide
    simp [Json.sortFields, Json.insertField, hlt]
  rw [read?_line, hvalue, hsort]

end Weave.Request
