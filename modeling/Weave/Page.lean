import Weave.Chunk
import Weave.Settings.Options

/-!
# Pages and scripts

The two kinds of text that chunks make. A Markdown page shows prose as it is and code between
fences, with an empty line after each chunk; for Documenter it opens with a block that says where
its source can be edited. A plain script is the code without the prose.
-/

namespace Weave

namespace Page

/-- A double quote is written with a backslash before it. -/
def escapeQuotes (s : String) : String :=
  String.ofList (s.toList.flatMap fun c => if c = '"' then ['\\', '"'] else [c])

/-- The block that names the place where the source can be edited. -/
def metaBlock (url : String) : String :=
  "```@meta\nEditURL = \"" ++ escapeQuotes url ++ "\"\n```\n\n"

/-- A chunk on the page, with the empty line after it. -/
def renderChunk (fence : Fence) (chunk : Chunk) : String :=
  match chunk.kind with
  | .markdown => Text.unlines "\n" chunk.lines ++ "\n"
  | .code => fence.opening ++ "\n" ++ Text.unlines "\n" chunk.lines ++ fence.closing ++ "\n\n"

/-- The page that chunks make. -/
def render (options : Options) (chunks : List Chunk) : String :=
  let head := match options.documenter, options.editUrl? with
    | true, some url => metaBlock url
    | _, _ => ""
  head ++ String.join (chunks.map (renderChunk options.fence))

end Page

/-- The code chunks, with an empty line between each two of them. -/
def Script.render (chunks : List Chunk) : String :=
  "\n\n".intercalate ((chunks.filter (·.kind = .code)).map Chunk.content)

end Weave
