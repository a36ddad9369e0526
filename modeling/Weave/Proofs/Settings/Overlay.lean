import Weave.Proofs.Toml.Documents
import Weave.Settings.Format

/-!
# Settings laid over the defaults

A settings file is a document of tables, and each setting has its place in it: the name of a table and
a name in this table (`Key`). What the document gives to a setting (`Key.given?`) decides over this
setting alone: it is the value of the setting, and the default is if nothing is given (`Lays`). It is
the same default whether the table is there or not, since that of a name and that of its section agree
(`Key.nameDefault_eq`). So two documents that give the same are read alike, whatever else stands in
them (`read?_lays`).
-/

namespace Weave

namespace Settings

/-! ## Places of settings -/

/-- The settings that a file can give, with the types of their values. -/
inductive Key : Type → Type where
  | outputDir : Key String
  | documenter : Key Bool
  | language : Key String
  | execute : Key Bool
  | fence : Key (Option Fence)
  | kernelName : Key String
  | kernelDisplayName : Key String
  | fileExtension : Key String
  | command : Key (Option String)
  | args : Key (List String)

/-- What a document gives to a name in one of its tables. -/
def valueAt? (fields : List (String × Toml)) (table name : String) : Option Toml :=
  match fields.lookup table with
  | some (.table inner) => inner.lookup name
  | _ => none

namespace Key

variable {α : Type}

/-- The table that a setting stands in. -/
def table : Key α → String
  | outputDir | documenter | language | execute => "defaults"
  | fence => "markdown"
  | kernelName | kernelDisplayName | fileExtension => "notebook"
  | command | args => "kernel"

/-- The name of a setting in its table. -/
def name : Key α → String
  | outputDir => "output_dir"
  | documenter => "documenter"
  | language => "language"
  | execute => "execute"
  | fence => "codefence"
  | kernelName => "kernel_name"
  | kernelDisplayName => "kernel_display_name"
  | fileExtension => "file_extension"
  | command => "command"
  | args => "args"

/-- What a document gives to a setting. -/
def given? (key : Key α) (fields : List (String × Toml)) : Option Toml :=
  valueAt? fields key.table key.name

/-- The setting among others. -/
def get : Key α → Settings → α
  | outputDir, settings => settings.outputDir
  | documenter, settings => settings.documenter
  | language, settings => settings.language
  | execute, settings => settings.execute
  | fence, settings => settings.fence?
  | kernelName, settings => settings.kernelName
  | kernelDisplayName, settings => settings.kernelDisplayName
  | fileExtension, settings => settings.fileExtension
  | command, settings => settings.command?
  | args, settings => settings.args

/-- The setting among the options of a run, if it is one of them. -/
def option? : Key α → Option (Options → α)
  | documenter => some Options.documenter
  | language => some Options.language
  | execute => some Options.execute
  | fence => some Options.fence?
  | kernelName => some Options.kernelName
  | kernelDisplayName => some Options.kernelDisplayName
  | fileExtension => some Options.fileExtension
  | outputDir | command | args => none

/-- A value in a document stands for this value of a setting. Behind the two strings of a fence more
may stand. -/
def Denotes : Key α → Toml → α → Prop
  | outputDir, value, s => value = .string s
  | documenter, value, b => value = .bool b
  | language, value, s => value = .string s
  | execute, value, b => value = .bool b
  | fence, value, fence? => ∃ fence more, fence? = some fence ∧
      value = .array (.string fence.opening :: .string fence.closing :: more)
  | kernelName, value, s => value = .string s
  | kernelDisplayName, value, s => value = .string s
  | fileExtension, value, s => value = .string s
  | command, value, command? => ∃ command, command? = some command ∧ value = .string command
  | args, value, items => value = .array (items.map .string)

/-- How a setting is read. -/
def read? : Key α → Toml → Option α
  | outputDir | language | kernelName | kernelDisplayName | fileExtension => Toml.string?
  | documenter | execute => Toml.bool?
  | fence => fun value => (Fence.ofToml? value).map some
  | command => fun value => value.string?.map some
  | args => Toml.strings?

/-- The default of the name of a setting, which holds in a table without this name. -/
def nameDefault : Key α → α
  | outputDir => defaultOutputDir
  | documenter | execute => defaultTrue
  | language => defaultLanguage
  | fence => none
  | kernelName => defaultKernelName
  | kernelDisplayName => defaultKernelDisplayName
  | fileExtension => defaultFileExtension
  | command => none
  | args => []

/-- What is read of a setting in its table. -/
def readIn? (key : Key α) (inner : List (String × Toml)) : Option α :=
  Toml.setting key.read? key.nameDefault (inner.lookup key.name)

/-- The value that a document lays over the default of a setting. -/
def laid (key : Key α) (fields : List (String × Toml)) : α :=
  ((key.given? fields).bind key.read?).getD (key.get {})

end Key

/-- Where settings may stand there are tables, and what stands in the place of a setting is a value
for it. -/
structure Conforms (fields : List (String × Toml)) : Prop where
  table : ∀ {α : Type} (key : Key α) (value : Toml), fields.lookup key.table = some value →
    ∃ inner, value = .table inner
  value : ∀ {α : Type} (key : Key α) (value : Toml), key.given? fields = some value →
    ∃ x, key.Denotes value x

/-- The settings are what a document gives, and the defaults where it gives nothing. -/
def Lays (fields : List (String × Toml)) (settings : Settings) : Prop :=
  ∀ {α : Type} (key : Key α),
    (∀ value, key.given? fields = some value → key.Denotes value (key.get settings)) ∧
      (key.given? fields = none → key.get settings = key.get {})

/-- A table that is absent, or present without a name that a setting has. It may hold other names. -/
def Silent (fields : List (String × Toml)) (table : String) : Prop :=
  ∀ value, fields.lookup table = some value → ∃ inner, value = .table inner ∧
    ∀ {α : Type} (key : Key α), key.table = table → inner.lookup key.name = none

/-! ## Reading one setting -/

end Settings

namespace Toml

variable {value : Toml}

theorem string?_eq_some_iff {s : String} : value.string? = some s ↔ value = .string s := by
  cases value <;> simp [string?]

theorem bool?_eq_some_iff {b : Bool} : value.bool? = some b ↔ value = .bool b := by
  cases value <;> simp [bool?]

theorem mapM_string?_eq_some_iff {values : List Toml} {items : List String} :
    values.mapM string? = some items ↔ values = items.map .string := by
  induction values generalizing items with
  | nil => cases items <;> simp
  | cons value values ih =>
    rw [List.mapM_cons]
    cases items with
    | nil => simp [Option.bind_eq_some_iff]
    | cons item items => simp [Option.bind_eq_some_iff, string?_eq_some_iff, ih]

theorem strings?_eq_some_iff {items : List String} :
    value.strings? = some items ↔ value = .array (items.map .string) := by
  cases value <;> simp [strings?, mapM_string?_eq_some_iff]

end Toml

theorem Fence.ofToml?_eq_some_iff {value : Toml} {fence : Fence} :
    Fence.ofToml? value = some fence ↔
      ∃ more, value = .array (.string fence.opening :: .string fence.closing :: more) := by
  constructor
  · intro h
    unfold ofToml? at h
    split at h
    · next opening closing more =>
      obtain ⟨opening', hopening, h⟩ := Option.bind_eq_some_iff.1 h
      obtain ⟨closing', hclosing, h⟩ := Option.bind_eq_some_iff.1 h
      cases h
      rw [Toml.string?_eq_some_iff.1 hopening, Toml.string?_eq_some_iff.1 hclosing]
      exact ⟨more, rfl⟩
    · cases h
  · rintro ⟨more, rfl⟩
    rfl

namespace Settings

section Reading

variable {α : Type} {fields fields' : List (String × Toml)} {key : Key α} {value : Toml} {x : α}

/-- A value is read as what it stands for. -/
theorem Key.read?_eq_some_iff : key.read? value = some x ↔ key.Denotes value x := by
  cases key with
  | outputDir => exact Toml.string?_eq_some_iff
  | documenter => exact Toml.bool?_eq_some_iff
  | language => exact Toml.string?_eq_some_iff
  | execute => exact Toml.bool?_eq_some_iff
  | fence =>
    rw [read?, Option.map_eq_some_iff]
    simp only [Fence.ofToml?_eq_some_iff]
    constructor
    · rintro ⟨fence, ⟨more, hvalue⟩, rfl⟩
      exact ⟨fence, more, rfl, hvalue⟩
    · rintro ⟨fence, more, rfl, hvalue⟩
      exact ⟨fence, ⟨more, hvalue⟩, rfl⟩
  | kernelName => exact Toml.string?_eq_some_iff
  | kernelDisplayName => exact Toml.string?_eq_some_iff
  | fileExtension => exact Toml.string?_eq_some_iff
  | command =>
    rw [read?, Option.map_eq_some_iff]
    simp only [Toml.string?_eq_some_iff]
    constructor
    · rintro ⟨command, hvalue, rfl⟩
      exact ⟨command, rfl, hvalue⟩
    · rintro ⟨command, rfl, hvalue⟩
      exact ⟨command, hvalue, rfl⟩
  | args => exact Toml.strings?_eq_some_iff

/-- The default of a name is that of its section: without a table a setting has the same value as in a
table without its name. -/
theorem Key.nameDefault_eq (key : Key α) : key.nameDefault = key.get {} := by
  cases key <;> rfl

/-- A section that a document leaves out has the values that the document lays over its defaults. -/
theorem Key.laid_of_lookup_eq_none (h : fields.lookup key.table = none) :
    key.laid fields = key.get {} := by
  rw [Key.laid, Key.given?, valueAt?, h]
  rfl

/-- A setting is read in its table as the value that stands there, or else as the default. -/
theorem readIn?_of_conforms (h : Conforms fields) {inner : List (String × Toml)} (key : Key α)
    (htable : fields.lookup key.table = some (.table inner)) :
    key.readIn? inner = some (key.laid fields) := by
  have hgiven : key.given? fields = inner.lookup key.name := by
    rw [Key.given?, valueAt?, htable]
  rw [Key.readIn?, Key.laid, hgiven]
  cases hvalue : inner.lookup key.name with
  | none =>
    rw [Key.nameDefault_eq]
    rfl
  | some value =>
    obtain ⟨x, hx⟩ := h.value key value (hgiven.trans hvalue)
    have hread := Key.read?_eq_some_iff.2 hx
    rw [Toml.setting, Option.bind_some, hread, Option.getD_some]

/-- A section comes to the same from its table as without one, if both are what it is to be. -/
theorem setting_section {σ : Type} {readSection? : Toml → Option σ} {default given : σ}
    {table : String} (h : ∀ value, fields.lookup table = some value → ∃ inner, value = .table inner)
    (habsent : fields.lookup table = none → default = given)
    (hpresent : ∀ inner, fields.lookup table = some (.table inner) →
      readSection? (.table inner) = some given) :
    Toml.setting readSection? default (fields.lookup table) = some given := by
  cases htable : fields.lookup table with
  | none => exact congrArg some (habsent htable)
  | some value =>
    obtain ⟨inner, rfl⟩ := h value htable
    exact hpresent inner htable

end Reading

/-! ## Reading all settings -/

/-- What a document lays over the defaults. -/
def overlay (fields : List (String × Toml)) : Settings where
  outputDir := Key.outputDir.laid fields
  documenter := Key.documenter.laid fields
  language := Key.language.laid fields
  execute := Key.execute.laid fields
  fence? := Key.fence.laid fields
  kernelName := Key.kernelName.laid fields
  kernelDisplayName := Key.kernelDisplayName.laid fields
  fileExtension := Key.fileExtension.laid fields
  command? := Key.command.laid fields
  args := Key.args.laid fields

variable {fields fields' : List (String × Toml)}

/-- Each setting of the overlay is what is laid for its key. -/
theorem get_overlay {α : Type} (key : Key α) (fields : List (String × Toml)) :
    key.get (overlay fields) = key.laid fields := by
  cases key <;> rfl

section Sections

/-! Each section is read key by key; the values of a table come in the order of its names. -/

theorem general_of_conforms (h : Conforms fields) :
    Toml.setting GeneralSettings.ofToml? {} (fields.lookup "defaults")
      = some (overlay fields).toGeneralSettings := by
  apply setting_section (h.table Key.outputDir)
  · intro habsent
    have hlaid {α : Type} (key : Key α) (hkey : key.table = "defaults") :
        key.laid fields = key.get {} := Key.laid_of_lookup_eq_none (hkey ▸ habsent)
    rw [overlay, hlaid .outputDir rfl, hlaid .documenter rfl, hlaid .language rfl,
      hlaid .execute rfl]
    rfl
  · intro inner htable
    have hread {α : Type} (key : Key α) (hkey : key.table = "defaults") :
        key.readIn? inner = some (key.laid fields) := readIn?_of_conforms h key (hkey ▸ htable)
    show (do
      return ({ outputDir := ← Key.outputDir.readIn? inner
                documenter := ← Key.documenter.readIn? inner
                language := ← Key.language.readIn? inner
                execute := ← Key.execute.readIn? inner } : GeneralSettings)) = _
    rw [hread .outputDir rfl, hread .documenter rfl, hread .language rfl, hread .execute rfl]
    rfl

theorem page_of_conforms (h : Conforms fields) :
    Toml.setting PageSettings.ofToml? {} (fields.lookup "markdown")
      = some (overlay fields).toPageSettings := by
  apply setting_section (h.table Key.fence)
  · intro habsent
    have hlaid : Key.fence.laid fields = Key.fence.get {} := Key.laid_of_lookup_eq_none habsent
    rw [overlay, hlaid]
    rfl
  · intro inner htable
    show (do return ({ fence? := ← Key.fence.readIn? inner } : PageSettings)) = _
    rw [readIn?_of_conforms h .fence htable]
    rfl

theorem notebook_of_conforms (h : Conforms fields) :
    Toml.setting NotebookSettings.ofToml? {} (fields.lookup "notebook")
      = some (overlay fields).toNotebookSettings := by
  apply setting_section (h.table Key.kernelName)
  · intro habsent
    have hlaid {α : Type} (key : Key α) (hkey : key.table = "notebook") :
        key.laid fields = key.get {} := Key.laid_of_lookup_eq_none (hkey ▸ habsent)
    rw [overlay, hlaid .kernelName rfl, hlaid .kernelDisplayName rfl, hlaid .fileExtension rfl]
    rfl
  · intro inner htable
    have hread {α : Type} (key : Key α) (hkey : key.table = "notebook") :
        key.readIn? inner = some (key.laid fields) := readIn?_of_conforms h key (hkey ▸ htable)
    show (do
      return ({ kernelName := ← Key.kernelName.readIn? inner
                kernelDisplayName := ← Key.kernelDisplayName.readIn? inner
                fileExtension := ← Key.fileExtension.readIn? inner } : NotebookSettings)) = _
    rw [hread .kernelName rfl, hread .kernelDisplayName rfl, hread .fileExtension rfl]
    rfl

theorem kernel_of_conforms (h : Conforms fields) :
    Toml.setting KernelSettings.ofToml? {} (fields.lookup "kernel")
      = some (overlay fields).toKernelSettings := by
  apply setting_section (h.table Key.command)
  · intro habsent
    have hlaid {α : Type} (key : Key α) (hkey : key.table = "kernel") :
        key.laid fields = key.get {} := Key.laid_of_lookup_eq_none (hkey ▸ habsent)
    rw [overlay, hlaid .command rfl, hlaid .args rfl]
    rfl
  · intro inner htable
    have hread {α : Type} (key : Key α) (hkey : key.table = "kernel") :
        key.readIn? inner = some (key.laid fields) := readIn?_of_conforms h key (hkey ▸ htable)
    show (do
      return ({ command? := ← Key.command.readIn? inner
                args := ← Key.args.readIn? inner } : KernelSettings)) = _
    rw [hread .command rfl, hread .args rfl]
    rfl

end Sections

/-- A document is read section by section, each from its own table. -/
theorem ofFields?_of_conforms (h : Conforms fields) : ofFields? fields = some (overlay fields) := by
  rw [ofFields?, general_of_conforms h, page_of_conforms h, notebook_of_conforms h,
    kernel_of_conforms h]
  rfl

/-- What is read are the values that the document gives, and the defaults where it gives none. -/
theorem lays_overlay (h : Conforms fields) : Lays fields (overlay fields) := by
  intro α key
  rw [get_overlay, Key.laid]
  constructor
  · intro value hgiven
    obtain ⟨x, hx⟩ := h.value key value hgiven
    rw [hgiven, Option.bind_some, Key.read?_eq_some_iff.2 hx]
    exact hx
  · intro hgiven
    rw [hgiven]
    rfl

/-- A setting hangs on nothing but what is given to it. -/
theorem get_overlay_congr {α : Type} {key : Key α} (h : key.given? fields = key.given? fields') :
    key.get (overlay fields) = key.get (overlay fields') := by
  rw [get_overlay, get_overlay, Key.laid, Key.laid, h]

/-- Settings are no more than what can be got from them. -/
theorem eq_of_get_eq {settings settings' : Settings}
    (h : ∀ {α : Type} (key : Key α), key.get settings = key.get settings') : settings = settings' := by
  obtain ⟨⟨⟩, ⟨⟩, ⟨⟩, ⟨⟩⟩ := settings
  obtain ⟨⟨⟩, ⟨⟩, ⟨⟩, ⟨⟩⟩ := settings'
  rw [mk.injEq, GeneralSettings.mk.injEq, PageSettings.mk.injEq, NotebookSettings.mk.injEq,
    KernelSettings.mk.injEq]
  exact ⟨⟨h .outputDir, h .documenter, h .language, h .execute⟩, h .fence,
    ⟨h .kernelName, h .kernelDisplayName, h .fileExtension⟩, h .command, h .args⟩

/-! ## Tables that say nothing -/

section Silent

variable {α : Type} {key : Key α}

/-- A table that is silent gives nothing for its keys. -/
theorem Silent.given?_eq_none (h : Silent fields key.table) : key.given? fields = none := by
  rw [Key.given?, valueAt?]
  split
  · next inner htable =>
    obtain ⟨inner', heq, hnames⟩ := h _ htable
    cases heq
    exact hnames key rfl
  · rfl

/-- A table is the same in both documents, or both say nothing about settings in it. -/
def Alike (fields fields' : List (String × Toml)) : Prop :=
  ∀ {α : Type} (key : Key α), fields.lookup key.table = fields'.lookup key.table ∨
    Silent fields key.table ∧ Silent fields' key.table

/-- Fields that say the same of all keys give the same for each. -/
theorem Alike.given?_eq (h : Alike fields fields') (key : Key α) :
    key.given? fields = key.given? fields' := by
  obtain htable | ⟨hsilent, hsilent'⟩ := h key
  · rw [Key.given?, Key.given?, valueAt?, valueAt?, htable]
  · rw [hsilent.given?_eq_none, hsilent'.given?_eq_none]

theorem Alike.conforms (h : Alike fields fields') (hfields : Conforms fields) :
    Conforms fields' := by
  constructor
  · intro α key value hvalue
    obtain htable | ⟨-, hsilent'⟩ := h key
    · exact hfields.table key value (htable.trans hvalue)
    · obtain ⟨inner, hinner, -⟩ := hsilent' value hvalue
      exact ⟨inner, hinner⟩
  · intro α key value hgiven
    exact hfields.value key value ((h.given?_eq key).trans hgiven)

end Silent

/-! ## Settings files -/

/-- A text whose fields conform is read as their overlay. -/
theorem read?_of_conforms {text : String} (hread : Toml.read? text = some fields)
    (h : Conforms fields) : read? text = some (overlay fields) := by
  rw [read?, hread]
  exact ofFields?_of_conforms h

/-- A settings file whose tables and values are of the right types is laid over the defaults. Another
such file agrees with it in every setting to which it gives the same, and in all if they differ only
in what tables say that say nothing about settings. The options of a run have the settings as they
are. -/
theorem read?_lays {text : String} (hread : Toml.read? text = some fields) (h : Conforms fields) :
    ∃ settings, read? text = some settings ∧ Lays fields settings ∧
      (∀ text' fields', Toml.read? text' = some fields' → Conforms fields' →
        ∃ settings', read? text' = some settings' ∧ ∀ {α : Type} (key : Key α),
          key.given? fields = key.given? fields' → key.get settings = key.get settings') ∧
      (∀ text' fields', Toml.read? text' = some fields' → Alike fields fields' →
        read? text' = some settings) ∧
      ∀ (name : String) {α : Type} (key : Key α) (option : Options → α),
        key.option? = some option → option (.ofSettings settings name) = key.get settings := by
  refine ⟨overlay fields, read?_of_conforms hread h, lays_overlay h, ?_, ?_, ?_⟩
  · intro text' fields' hread' h'
    exact ⟨overlay fields', read?_of_conforms hread' h', fun key => get_overlay_congr⟩
  · intro text' fields' hread' halike
    rw [read?_of_conforms hread' (halike.conforms h)]
    exact congrArg some (eq_of_get_eq fun key => get_overlay_congr (halike.given?_eq key).symm)
  · intro name α key option hoption
    cases key <;> cases hoption <;> rfl

/-- A file with one setting and a table of which nothing is known, and the same without this table. -/
theorem read?_lays_partial :
    let text := "[defaults]\nexecute = false\n\n[kernel]\nx = \"1\"\n"
    let text' := "[defaults]\nexecute = false\n"
    let fields' : List (String × Toml) := [("defaults", .table [("execute", .bool false)])]
    let fields := fields' ++ [("kernel", .table [("x", .string "1")])]
    Toml.read? text = some fields ∧ Toml.read? text' = some fields' ∧ Conforms fields ∧
      Alike fields fields' ∧
      ∃ settings, read? text = some settings ∧ read? text' = some settings ∧
        settings.execute = false ∧ settings.language = "julia" ∧ settings.command? = none ∧
        (Options.ofSettings settings "a").execute = false := by
  intro text text' fields' fields
  have hdefaults : Toml.SpellsTable ("defaults", [("execute", Toml.writeBool false)])
      ("defaults", [("execute", .bool false)]) :=
    .mk (by decide) (.cons (.mk (by decide) (Toml.spells_writeBool false)) .nil)
  have hkernel : Toml.SpellsTable ("kernel", [("x", Toml.writeString "1")])
      ("kernel", [("x", .string "1")]) :=
    .mk (by decide) (.cons (.mk (by decide) (Toml.spells_writeString "1")) .nil)
  have htext : text = String.ofList (Toml.writeTables
      [("defaults", [("execute", Toml.writeBool false)]), ("kernel", [("x", Toml.writeString "1")])]) := by
    decide
  have htext' : text' = String.ofList (Toml.writeTables
      [("defaults", [("execute", Toml.writeBool false)])]) := by
    decide
  have hread : Toml.read? text = some fields := by
    rw [htext]
    exact Toml.read?_writeTables (.cons hdefaults (.cons hkernel .nil)) (by decide) (by decide)
  have hread' : Toml.read? text' = some fields' := by
    rw [htext']
    exact Toml.read?_writeTables (.cons hdefaults .nil) (by decide) (by decide)
  have hconforms : Conforms fields := by
    constructor
    · intro α key value hvalue
      cases key <;> cases hvalue <;> exact ⟨_, rfl⟩
    · intro α key value hgiven
      cases key <;> cases hgiven
      exact ⟨false, rfl⟩
  have hsilent : Silent fields "kernel" := by
    intro value hvalue
    cases hvalue
    refine ⟨_, rfl, ?_⟩
    intro α key hkey
    cases key <;> rfl
  have halike : Alike fields fields' := by
    intro α key
    cases key
    case command | args => exact .inr ⟨hsilent, fun value hvalue => by cases hvalue⟩
    all_goals exact .inl rfl
  obtain ⟨settings, hsettings, hlays, -, hsame, hoptions⟩ := read?_lays hread hconforms
  have hexecute : settings.execute = false :=
    (Toml.bool.inj ((hlays .execute).1 (.bool false) rfl)).symm
  exact ⟨hread, hread', hconforms, halike, settings, hsettings, hsame text' fields' hread' halike,
    hexecute, (hlays .language).2 rfl, (hlays .command).2 rfl,
    (hoptions "a" .execute _ rfl).trans hexecute⟩

end Settings

end Weave
