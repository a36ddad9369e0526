/-!
# Options

`Settings` is what a settings file says, in four sections, with a default for everything it leaves
out; `Options` is what one run of a generation is told.

A default is given twice. A section has its own, which hold if a file leaves the section out: these
stand at its fields below. And a name has one, which holds if a file has the section and leaves the
name out: these are `Settings.defaultLanguage` and its like, as far as they are not simply nothing.
-/

namespace Weave

/-- The lines that open and close a block of code on a page. -/
structure Fence where
  opening : String
  closing : String
  deriving DecidableEq, Repr

namespace Settings

/-! ## Defaults of names -/

/-- The default of `output_dir`. -/
def defaultOutputDir : String := "generated"

/-- The default of `language`. -/
def defaultLanguage : String := "julia"

/-- The default of `documenter` and of `execute`. -/
def defaultTrue : Bool := true

/-- The default of `kernel_name`. -/
def defaultKernelName : String := "julia-1.0"

/-- The default of `kernel_display_name`. -/
def defaultKernelDisplayName : String := "Julia 1.0"

/-- The default of `file_extension`. -/
def defaultFileExtension : String := ".jl"

end Settings

/-! ## Sections -/

open Settings in
/-- The section `defaults`. -/
structure GeneralSettings where
  /-- The directory that artifacts are written to. -/
  outputDir : String := defaultOutputDir
  /-- Whether pages are meant for Documenter. -/
  documenter : Bool := true
  /-- The language of the code. -/
  language : String := defaultLanguage
  /-- Whether notebooks are executed. -/
  execute : Bool := true
  deriving DecidableEq, Repr

/-- The section `markdown`. -/
structure PageSettings where
  fence? : Option Fence := none
  deriving DecidableEq, Repr

open Settings in
/-- The section `notebook`. -/
structure NotebookSettings where
  kernelName : String := defaultKernelName
  kernelDisplayName : String := defaultKernelDisplayName
  /-- The extension of a script in the language, with its dot. -/
  fileExtension : String := defaultFileExtension
  deriving DecidableEq, Repr

/-- The section `kernel`. -/
structure KernelSettings where
  /-- The program that executes cells; without it nothing is executed. -/
  command? : Option String := none
  /-- What the program is called with. -/
  args : List String := []
  deriving DecidableEq, Repr

/-- The content of a settings file. -/
structure Settings extends GeneralSettings, PageSettings, NotebookSettings, KernelSettings
  deriving DecidableEq, Repr

/-! ## What one run is told -/

/-- What one run is told. -/
structure Options where
  /-- The name of the artifact, without extension; it also labels the examples of a page. -/
  name : String
  documenter : Bool
  fence? : Option Fence
  language : String
  execute : Bool
  /-- Where the source lies, seen from the artifact. -/
  editUrl? : Option String
  kernelName : String
  kernelDisplayName : String
  fileExtension : String
  deriving DecidableEq, Repr

namespace Options

/-- The options that settings give to an artifact of this name. -/
def ofSettings (settings : Settings) (name : String) : Options where
  name := name
  documenter := settings.documenter
  fence? := settings.fence?
  language := settings.language
  execute := settings.execute
  editUrl? := none
  kernelName := settings.kernelName
  kernelDisplayName := settings.kernelDisplayName
  fileExtension := settings.fileExtension

/-- The fence in effect. Unless one is given, Documenter gets an example block with the name of the
artifact, anyone else a block in the language. -/
def fence (options : Options) : Fence :=
  match options.fence? with
  | some fence => fence
  | none =>
    if options.documenter then ⟨"```@example " ++ options.name, "```"⟩
    else ⟨"```" ++ options.language, "```"⟩

end Options

end Weave
