import Weave.Main
import Weave.Workplace
import Weave.Proofs.Chunk.Boundary
import Weave.Proofs.Chunk.Printer
import Weave.Proofs.Chunk.Stages
import Weave.Proofs.Document.Agreement
import Weave.Proofs.Document.Refusals
import Weave.Proofs.Document.Resolution
import Weave.Proofs.Document.Stripped
import Weave.Proofs.Generation.Asking
import Weave.Proofs.Generation.Effects
import Weave.Proofs.Generation.Steps
import Weave.Proofs.Document.LineEnds
import Weave.Proofs.Notebook.Attempts
import Weave.Proofs.Bridge.Conversation
import Weave.Proofs.Json.Tokens
import Weave.Proofs.Json.RoundTrip
import Weave.Proofs.Json.Record
import Weave.Proofs.Notebook.Format
import Weave.Proofs.Chunk.Borders
import Weave.Proofs.Prose.References
import Weave.Proofs.Prose.Equations
import Weave.Proofs.Page.Fences
import Weave.Proofs.Path.Raw
import Weave.Proofs.Json.Compact
import Weave.Proofs.Bridge.Requests
import Weave.Proofs.Notebook.Sources
import Weave.Proofs.Generation.Replacement
import Weave.Proofs.Settings.Format
import Weave.Proofs.Settings.Overlay
import Weave.Proofs.Line.Grammar
import Weave.Proofs.Command.Precedence
import Weave.Proofs.Notebook.Margins
import Weave.Proofs.Text.Span
import Weave.Proofs.Page.EditUrl
import Weave.Proofs.Generation.Mark

/-!
# Weave

Annotated scripts are woven into pages, notebooks and plain scripts. `Weave.Generation.Basic` puts the
parts together, `Weave.Command.Run` is what the command line does with them, and what is known of all
this stands under `Weave.Proofs`.

What is left out:

* the words of whoever reads JSON and TOML about texts that are none; where such words end up in a
  message of a bridge, they are a parameter (`Bridges.reason?`);
* how long a command takes, which is a parameter of what it prints (`Report.text`);
* names of files that are no texts, except in ways between paths (`RawPath`);
* links, permissions, full disks and operations that stop half way;
* how a bridge ends, and whether it still reads what it is sent.
-/
