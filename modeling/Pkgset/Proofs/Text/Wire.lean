import Pkgset.Build.Config
import Pkgset.Proofs.Derivation.Identity
import Pkgset.Proofs.Text.Dict
import Pkgset.Proofs.Text.Form
import Pkgset.Store

/-!
# Values that are read back

Each type that is written as JSON has a form. A value is read from every text that writes
a document that its form admits: the fields of records may be reordered, stand among
others and be left out where a default stands for them, with blanks between all tokens.
-/

namespace Pkgset
open Json

namespace Json

theorem text?_document (value : String) : Document.text? (document (.text value)) = some value := rfl

theorem flag?_document (value : Bool) : Document.flag? (document (.flag value)) = some value := rfl

theorem word32?_document (n : UInt32) : Document.word32? (document (.number n.toNat)) = some n := by
  have shape : document (.number n.toNat) = .whole false n.toNat := rfl
  simp [shape, Document.word32?, Document.natural?, n.toNat_lt]

theorem word64?_document (n : UInt64) : Document.word64? (document (.number n.toNat)) = some n := by
  have shape : document (.number n.toNat) = .whole false n.toNat := rfl
  simp [shape, Document.word64?, Document.natural?, n.toNat_lt]

theorem texts?_document (names : List String) : Document.texts? (texts names).document = some names := by
  have each : (itemDocuments (names.map .text)).mapM Document.text? = some names := by
    induction names with
    | nil => rfl
    | cons name names ih => simp [itemDocuments, text?_document, ih]
  exact each

/-- A table is read from its members as they are listed. -/
theorem textTable?_document {table : Dict String} (ascends : table.Ascending) :
    Document.textTable? (textTable table).document = some table := by
  have shape : (textTable table).document = .record (memberDocuments (Dict.mapValues .text table)) := rfl
  rw [shape, Document.textTable?]
  have each (read : Option String × Document → Option (String × String))
      (reads : ∀ name value, read (some name, document (.text value)) = some (name, value)) (entries : Dict String) :
      (memberDocuments (Dict.mapValues .text entries)).mapM read = some entries := by
    induction entries with
    | nil => rfl
    | cons entry entries ih =>
      rw [Dict.mapValues] at ih
      exact (List.mapM_cons ..).trans (by rw [ih, reads]; rfl)
  rw [each _ fun _ _ => rfl]
  simp [Dict.ofList_of_ascending ascends]

theorem nullable?_text (value : String) :
    Document.nullable? Document.text? (document (.text value)) = some (some value) := rfl

theorem nullable?_textTable {table : Dict String} (ascends : table.Ascending) :
    Document.nullable? Document.textTable? (textTable table).document = some (some table) := by
  rw [← Option.map_some, ← textTable?_document ascends]
  rfl

theorem nullable?_orNull (value : Option String) :
    Document.nullable? Document.text? (document (orNull (value.map .text))) = some value := by
  cases value <;> rfl

end Json

/-! ### The forms -/

/-- A fingerprint as JSON. -/
def Fingerprint.toJson (fingerprint : Fingerprint) : Json := .text fingerprint.text

/-- The form of a fingerprint. -/
def Fingerprint.form (fingerprint : Fingerprint) : Form := .plain fingerprint.toJson

/-- The form of a phase name. -/
def PhaseName.form (name : PhaseName) : Form := .record [
  ("phase", false, .plain (.text name.phase.name)),
  ("slot", false, .plain (.text name.slot.name))]

/-- The form of a command: what it does not have may be left out. -/
def Command.form (command : Command) : Form := .variant "Cmd" (.record [
  ("cmd", false, .plain (.text command.text)),
  ("env", command.environment.isNone, .plain (orNull (command.environment.map textTable))),
  ("cwd", command.directory.isNone, .plain (orNull (command.directory.map .text)))])

/-- The form of a phase. -/
def Phase.form (phase : Phase) : Form := .record [
  ("name", false, phase.name.form),
  ("action", false, phase.action.form),
  ("retryable", false, .plain (.flag phase.retryable))]

/-- The form of a triple. -/
def PlatformTriple.form (triple : PlatformTriple) : Form := .record [
  ("build", false, .plain (.text triple.build.name)),
  ("host", false, .plain (.text triple.host.name)),
  ("target", false, .plain (.text triple.target.name))]

/-- The form of a marker. -/
def StoreMarker.form (marker : StoreMarker) : Form := .record [
  ("version", false, .plain (.number marker.version.toNat)),
  ("name", false, .plain (.text marker.name)),
  ("fingerprint", false, marker.fingerprint.form),
  ("outputs", false, .plain (texts marker.outputs)),
  ("output_hash", false, .plain (.text marker.outputHash))]

/-- The form of outputs. -/
def Outputs.form (outputs : Outputs) : Form := .record [
  ("store_path", false, .plain (.text outputs.storePath)),
  ("outputs", false, .plain (textTable outputs.paths))]

/-- The form of a configuration: what is as in the default may be left out. -/
def BuildConfig.form (config default : BuildConfig) : Form := .record [
  ("max_jobs", config.maxJobs = default.maxJobs, .plain (.number config.maxJobs.toNat)),
  ("check_policy", config.checkPolicy = default.checkPolicy, .plain (.text config.checkPolicy.name)),
  ("retry_attempts", config.retryAttempts = default.retryAttempts, .plain (.number config.retryAttempts.toNat)),
  ("keep_going", config.keepGoing = default.keepGoing, .plain (.flag config.keepGoing)),
  ("store_root", config.storeRoot = default.storeRoot, .plain (.text config.storeRoot)),
  ("shell", config.shell = default.shell, .plain (orNull (config.shell.map .text)))]

/-! ### Reading a form -/

theorem StdPhase.ofDocument?_name (phase : StdPhase) : ofDocument? (document (.text phase.name)) = some phase := by
  cases phase <;> rfl

theorem PhaseSlot.ofDocument?_name (slot : PhaseSlot) : ofDocument? (document (.text slot.name)) = some slot := by
  cases slot <;> rfl

theorem CheckPolicy.ofDocument?_name (policy : CheckPolicy) : ofDocument? (document (.text policy.name)) = some policy := by
  cases policy <;> rfl

theorem Platform.ofDocument?_name (platform : Platform) : ofDocument? (document (.text platform.name)) = some platform := by
  simp [ofDocument?, text?_document, parse_name, Except.toOption]

theorem PhaseName.gives (name : PhaseName) : name.form.Gives ofDocument? name := by
  intro document admits
  obtain ⟨found, fields, finds⟩ := admits.fields ["phase", "slot"] rfl (by decide)
  have phase := finds.required 0 rfl (Form.gives_plain (StdPhase.ofDocument?_name name.phase))
  have slot := finds.required 1 rfl (Form.gives_plain (PhaseSlot.ofDocument?_name name.slot))
  simp [ofDocument?, fields, phase, slot]

theorem Command.gives {command : Command} (ascends : ∀ table ∈ command.environment, table.Ascending) :
    command.form.Gives ofDocument? command := by
  rintro _ (_ | ⟨_, inner⟩)
  obtain ⟨found, fields, finds⟩ := inner.fields ["cmd", "env", "cwd"] rfl (by decide)
  have text := finds.required 0 rfl (Form.gives_plain (text?_document command.text))
  have environment := finds.optional 1 rfl fun table given => nullable?_textTable (ascends table given)
  have directory := finds.optional 2 rfl fun directory _ => nullable?_text directory
  simp [ofDocument?, fields, text, environment, directory]

theorem Phase.gives {phase : Phase} (ascends : ∀ table ∈ phase.action.environment, table.Ascending) :
    phase.form.Gives ofDocument? phase := by
  intro document admits
  obtain ⟨found, fields, finds⟩ := admits.fields ["name", "action", "retryable"] rfl (by decide)
  have name := finds.required 0 rfl phase.name.gives
  have action := finds.required 1 rfl (Command.gives ascends)
  have retryable := finds.required 2 rfl (Form.gives_plain (flag?_document phase.retryable))
  simp [ofDocument?, fields, name, action, retryable]

theorem PlatformTriple.gives (triple : PlatformTriple) : triple.form.Gives ofDocument? triple := by
  intro document admits
  obtain ⟨found, fields, finds⟩ := admits.fields ["build", "host", "target"] rfl (by decide)
  have build := finds.required 0 rfl (Form.gives_plain (Platform.ofDocument?_name triple.build))
  have host := finds.required 1 rfl (Form.gives_plain (Platform.ofDocument?_name triple.host))
  have target := finds.required 2 rfl (Form.gives_plain (Platform.ofDocument?_name triple.target))
  simp [ofDocument?, fields, build, host, target]

theorem Fingerprint.gives (fingerprint : Fingerprint) : fingerprint.form.Gives ofDocument? fingerprint :=
  Form.gives_plain rfl

theorem StoreMarker.gives (marker : StoreMarker) : marker.form.Gives ofDocument? marker := by
  intro document admits
  obtain ⟨found, fields, finds⟩ :=
    admits.fields ["version", "name", "fingerprint", "outputs", "output_hash"] rfl (by decide)
  have version := finds.required 0 rfl (Form.gives_plain (word32?_document marker.version))
  have name := finds.required 1 rfl (Form.gives_plain (text?_document marker.name))
  have fingerprint := finds.required 2 rfl marker.fingerprint.gives
  have outputs := finds.required 3 rfl (Form.gives_plain (texts?_document marker.outputs))
  have hash := finds.required 4 rfl (Form.gives_plain (text?_document marker.outputHash))
  simp [ofDocument?, fields, version, name, fingerprint, outputs, hash]

theorem Outputs.gives {outputs : Outputs} (ascends : outputs.paths.Ascending) : outputs.form.Gives ofDocument? outputs := by
  intro document admits
  obtain ⟨found, fields, finds⟩ := admits.fields ["store_path", "outputs"] rfl (by decide)
  have path := finds.required 0 rfl (Form.gives_plain (text?_document outputs.storePath))
  have paths := finds.required 1 rfl (Form.gives_plain (textTable?_document ascends))
  simp [ofDocument?, fields, path, paths]

theorem BuildConfig.gives (config default : BuildConfig) : (config.form default).Gives (ofDocument? default) config := by
  intro document admits
  obtain ⟨found, fields, finds⟩ := admits.fields
    ["max_jobs", "check_policy", "retry_attempts", "keep_going", "store_root", "shell"] rfl (by decide)
  have jobs := finds.withDefault 0 rfl (Form.gives_plain (word64?_document config.maxJobs))
  have policy := finds.withDefault 1 rfl (Form.gives_plain (CheckPolicy.ofDocument?_name config.checkPolicy))
  have retries := finds.withDefault 2 rfl (Form.gives_plain (word32?_document config.retryAttempts))
  have going := finds.withDefault 3 rfl (Form.gives_plain (flag?_document config.keepGoing))
  have root := finds.withDefault 4 rfl (Form.gives_plain (text?_document config.storeRoot))
  have shell := finds.withDefault 5 rfl (Form.gives_plain (nullable?_orNull config.shell))
  simp [ofDocument?, fields, jobs, policy, retries, going, root, shell]

/-- Every value that is written as JSON is read back: a phase name, a command, a phase, a
    triple, a marker, outputs, a fingerprint and a configuration. Tables of text list their
    keys in ascending order. -/
theorem reads_back (processors : UInt64) (given : Variables) :
    (∀ name : PhaseName, Form.ReadsBack PhaseName.toJson name.form PhaseName.ofDocument? name) ∧
    (∀ command : Command, (∀ table ∈ command.environment, table.Ascending) →
      Form.ReadsBack Command.toJson command.form Command.ofDocument? command) ∧
    (∀ phase : Phase, (∀ table ∈ phase.action.environment, table.Ascending) →
      Form.ReadsBack Phase.toJson phase.form Phase.ofDocument? phase) ∧
    (∀ triple : PlatformTriple, Form.ReadsBack PlatformTriple.toJson triple.form PlatformTriple.ofDocument? triple) ∧
    (∀ marker : StoreMarker, Form.ReadsBack StoreMarker.toJson marker.form StoreMarker.ofDocument? marker) ∧
    (∀ outputs : Outputs, outputs.paths.Ascending →
      Form.ReadsBack Outputs.toJson outputs.form Outputs.ofDocument? outputs) ∧
    (∀ fingerprint : Fingerprint,
      Form.ReadsBack Fingerprint.toJson fingerprint.form Fingerprint.ofDocument? fingerprint) ∧
    ∀ config : BuildConfig, Form.ReadsBack BuildConfig.toJson (config.form (.standard processors given))
      (BuildConfig.ofDocument? (.standard processors given)) config :=
  ⟨fun name => name.gives.readsBack rfl, fun _ ascends => (Command.gives ascends).readsBack rfl,
    fun _ ascends => (Phase.gives ascends).readsBack rfl, fun triple => triple.gives.readsBack rfl,
    fun marker => marker.gives.readsBack rfl, fun _ ascends => (Outputs.gives ascends).readsBack rfl,
    fun fingerprint => fingerprint.gives.readsBack rfl, fun config => (config.gives _).readsBack rfl⟩

/-- A phase with variables of its own. -/
def Phase.sample : Phase := ⟨⟨.install, .post⟩, ⟨"make \"all\"", some [("CC", "gcc"), ("LANG", "C")], none⟩, true⟩

theorem reads_back_sample :
    (∀ table ∈ Phase.sample.action.environment, table.Ascending) ∧
      Form.ReadsBack Phase.toJson Phase.sample.form Phase.ofDocument? Phase.sample ∧
      Form.ReadsBack Outputs.toJson (Outputs.form ⟨"/store/a", [("bin", "/b"), ("out", "/o")]⟩) Outputs.ofDocument?
        ⟨"/store/a", [("bin", "/b"), ("out", "/o")]⟩ := by
  have ascends : ∀ table ∈ Phase.sample.action.environment, table.Ascending := by
    rintro table ⟨⟩
    simp only [Dict.Ascending, Dict.keys]
    decide
  obtain ⟨-, -, phases, -, -, outputs, -, -⟩ := reads_back 4 ⟨[]⟩
  refine ⟨ascends, phases Phase.sample ascends, outputs _ ?_⟩
  simp only [Dict.Ascending, Dict.keys]
  decide

/-- The fields are in another order, one is unknown, one is left out, and there are blanks. -/
example : (Document.ofText? "\x7b\"Cmd\": \x7b\"cwd\": \"/tmp\",\n\"note\": [1.5e3], \"cmd\": \"make\"\x7d\x7d").bind
    Command.ofDocument? = some ⟨"make", none, some "/tmp"⟩ := by decide +kernel

end Pkgset
