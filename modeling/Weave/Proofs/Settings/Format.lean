import Mathlib.Data.List.Nodup
import Weave.Proofs.Settings.Overlay
import Weave.Proofs.Toml.Documents

/-!
# Settings read back from their files

What the tables of a settings file stand for (`values`) is spelled by what is written
(`forall₂_spellsTable`), and gives the settings again (`ofFields?_values`): every name is found in
its table, and a setting that is left out has no default. So all settings are read back from their
file, whatever text they hold.
-/

namespace Weave.Settings

/-- What the tables of a settings file stand for. -/
def values (settings : Settings) : List (String × List (String × Toml)) := [
  ("defaults", [
    ("output_dir", .string settings.outputDir),
    ("documenter", .bool settings.documenter),
    ("language", .string settings.language),
    ("execute", .bool settings.execute)]),
  ("markdown",
    settings.fence?.toList.map fun fence =>
      ("codefence", .array ([fence.opening, fence.closing].map .string))),
  ("notebook", [
    ("kernel_name", .string settings.kernelName),
    ("kernel_display_name", .string settings.kernelDisplayName),
    ("file_extension", .string settings.fileExtension)]),
  ("kernel",
    settings.command?.toList.map (fun command => ("command", .string command)) ++
      [("args", .array (settings.args.map .string))])]

open Toml (SpellsTable spells_writeString spells_writeBool spells_writeStrings)

/-- Each table of a settings file is written as what it stands for. -/
theorem forall₂_spellsTable (settings : Settings) :
    List.Forall₂ SpellsTable settings.tables settings.values := by
  refine .cons ⟨by decide, ?defaults⟩ (.cons ⟨by decide, ?markdown⟩
    (.cons ⟨by decide, ?notebook⟩ (.cons ⟨by decide, ?kernel⟩ .nil)))
  case defaults =>
    exact .cons ⟨by decide, spells_writeString settings.outputDir⟩
      (.cons ⟨by decide, spells_writeBool settings.documenter⟩
      (.cons ⟨by decide, spells_writeString settings.language⟩
      (.cons ⟨by decide, spells_writeBool settings.execute⟩ .nil)))
  case markdown =>
    cases settings.fence? with
    | none => exact .nil
    | some fence =>
      exact .cons ⟨by decide, spells_writeStrings [fence.opening, fence.closing]⟩ .nil
  case notebook =>
    exact .cons ⟨by decide, spells_writeString settings.kernelName⟩
      (.cons ⟨by decide, spells_writeString settings.kernelDisplayName⟩
      (.cons ⟨by decide, spells_writeString settings.fileExtension⟩ .nil))
  case kernel =>
    have hargs := spells_writeStrings settings.args
    cases settings.command? with
    | none => exact .cons ⟨by decide, hargs⟩ .nil
    | some command =>
      exact .cons ⟨by decide, spells_writeString command⟩ (.cons ⟨by decide, hargs⟩ .nil)

/-- No table has a name twice. -/
theorem nodup_keys_values (settings : Settings) :
    ∀ table ∈ settings.values, (table.2.map Prod.fst).Nodup := by
  refine List.forall_mem_cons.2 ⟨?defaults, List.forall_mem_cons.2 ⟨?markdown,
    List.forall_mem_cons.2 ⟨?notebook, List.forall_mem_singleton.2 ?kernel⟩⟩⟩
  case defaults =>
    show ["output_dir", "documenter", "language", "execute"].Nodup
    decide
  case markdown =>
    cases settings.fence? with
    | none => exact List.nodup_nil
    | some fence => exact List.nodup_singleton "codefence"
  case notebook =>
    show ["kernel_name", "kernel_display_name", "file_extension"].Nodup
    decide
  case kernel =>
    cases settings.command? with
    | none => exact List.nodup_singleton "args"
    | some command =>
      show ["command", "args"].Nodup
      decide

/-- The last section is read from its table: a list of strings, and a program if there is one. -/
theorem kernel_ofToml?_values (kernel : KernelSettings) :
    KernelSettings.ofToml? (.table
        (kernel.command?.toList.map (fun command => ("command", .string command)) ++
          [("args", .array (kernel.args.map .string))])) = some kernel := by
  have hread : KernelSettings.ofToml? (.table
      (kernel.command?.toList.map (fun command => ("command", .string command)) ++
        [("args", .array (kernel.args.map .string))]))
        = (Toml.strings? (.array (kernel.args.map .string))).bind fun args =>
            some { kernel with args } := by
    obtain ⟨command?, args⟩ := kernel
    cases command? <;> rfl
  rw [hread, Toml.strings?_eq_some_iff.2 rfl, Option.bind_some]

/-- The tables of a settings file give the settings that they are made of. -/
theorem ofFields?_values (settings : Settings) :
    ofFields? (settings.values.map fun table => (table.1, .table table.2)) = some settings := by
  obtain ⟨⟨outputDir, documenter, language, execute⟩, ⟨fence?⟩,
    ⟨kernelName, kernelDisplayName, fileExtension⟩, kernel⟩ := settings
  have hread : ofFields? ((Settings.mk ⟨outputDir, documenter, language, execute⟩ ⟨fence?⟩
      ⟨kernelName, kernelDisplayName, fileExtension⟩ kernel).values.map fun table =>
        (table.1, .table table.2))
      = (KernelSettings.ofToml? (.table
          (kernel.command?.toList.map (fun command => ("command", .string command)) ++
            [("args", .array (kernel.args.map .string))]))).bind fun kernel =>
          some ⟨⟨outputDir, documenter, language, execute⟩, ⟨fence?⟩,
            ⟨kernelName, kernelDisplayName, fileExtension⟩, kernel⟩ := by
    cases fence? <;> rfl
  rw [hread, kernel_ofToml?_values, Option.bind_some]

/-- All settings are read back from the file that they are written to. -/
theorem read?_write_self (settings : Settings) : read? settings.write = some settings := by
  have hnames : (settings.values.map Prod.fst).Nodup := by
    show ["defaults", "markdown", "notebook", "kernel"].Nodup
    decide
  have hread : Toml.read? settings.write
      = some (settings.values.map fun table => (table.1, .table table.2)) :=
    Toml.read?_writeTables settings.forall₂_spellsTable hnames settings.nodup_keys_values
  rw [read?, hread]
  exact settings.ofFields?_values

end Weave.Settings
