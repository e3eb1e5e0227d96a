import Pkgset.Json.Document
import Pkgset.Path
import Pkgset.Text.Blank

/-!
# Configuration of builds

A configuration comes from the variables of the environment or from a JSON document.
What neither gives has a default.
-/

namespace Pkgset

/-- When check phases run: always, never, or when the results run on the machine that
    builds them. -/
inductive CheckPolicy where
  | always | never | nativeOnly
  deriving DecidableEq, Repr

namespace CheckPolicy

/-- The policy's name. -/
def name : CheckPolicy → String
  | .always => "always"
  | .never => "never"
  | .nativeOnly => "native-only"

/-- What is said of a text that names no policy. -/
def expectation : String := "expected always, never or native-only"

/-- Reads a policy's name in letters of either case; one policy has two names. -/
def parse? (text : String) : Option CheckPolicy :=
  let lower := text.toLower
  if lower = "always" then some .always
  else if lower = "never" then some .never
  else if lower = "native-only" ∨ lower = "native" then some .nativeOnly
  else none

/-- Reads a policy out of a JSON document, which has to spell its name exactly. -/
def ofDocument? (document : Json.Document) : Option CheckPolicy := do
  let name ← document.variant?
  [always, never, nativeOnly].find? (·.name = name)

end CheckPolicy

/-- The variables of the environment, as bytes. -/
structure Variables where
  values : Dict Bytes

namespace Variables

/-- A variable; one that is not text counts as absent. -/
def text? (given : Variables) (name : String) : Option String :=
  (Dict.get? given.values name).bind Bytes.toText?

/-- A variable that is not blank. -/
def setting? (given : Variables) (name : String) : Option String :=
  (given.text? name).filter fun value => Blank.trim value ≠ ""

/-- The folder for temporary files. -/
def temporaryFolder (given : Variables) : String := (given.text? "TMPDIR").getD "/tmp"

/-- The folder that caches of all programs are in. -/
def cacheHome (given : Variables) : String :=
  match given.text? "XDG_CACHE_HOME", given.text? "HOME" with
  | some folder, _ => folder
  | none, some home => Path.join home ".cache"
  | none, none => given.temporaryFolder

/-- The folder for cached files. -/
def cacheFolder (given : Variables) : String := Path.join given.cacheHome "pkgfix"

/-- The root of the store. -/
def storeFolder (given : Variables) : String :=
  match given.text? "PKGFIX_STORE" with
  | some path => if path.isEmpty then Path.join given.cacheFolder "store" else path
  | none => Path.join given.cacheFolder "store"

end Variables

/-- How derivations are built. -/
structure BuildConfig where
  maxJobs : UInt64
  checkPolicy : CheckPolicy
  retryAttempts : UInt32
  keepGoing : Bool
  storeRoot : String
  shell : Option String
  deriving DecidableEq, Repr

/-- A variable whose value is not understood. -/
structure ConfigError where
  name : String
  value : String
  reason : String
  deriving DecidableEq, Repr

/-- The wording of a configuration error. -/
def ConfigError.message (error : ConfigError) : String :=
  "invalid value for " ++ error.name ++ ": '" ++ error.value ++ "' (" ++ error.reason ++ ")"

namespace BuildConfig

/-- The configuration that nothing was said about: a job for each processor. -/
def standard (processors : UInt64) (given : Variables) : BuildConfig where
  maxJobs := processors
  checkPolicy := .nativeOnly
  retryAttempts := 0
  keepGoing := true
  storeRoot := given.storeFolder
  shell := none

/-- The number of jobs that a text gives. -/
def readJobs? (text : String) : Option UInt64 :=
  ((Decimal.read? UInt64.size text).filter (0 < ·)).map UInt64.ofNat

/-- The number of retries that a text gives. -/
def readRetries? (text : String) : Option UInt32 := (Decimal.read? UInt32.size text).map UInt32.ofNat

/-- The truth value that a text gives. -/
def readFlag? (text : String) : Option Bool :=
  let lower := (Blank.trim text).toLower
  if lower = "1" ∨ lower = "true" ∨ lower = "yes" ∨ lower = "on" then some true
  else if lower = "0" ∨ lower = "false" ∨ lower = "no" ∨ lower = "off" then some false
  else none

/-- The reading of a variable, or a default if it is absent or blank. -/
def fromVariable {α : Type} (given : Variables) (name reason : String) (default : α)
    (read? : String → Option α) : Except ConfigError α :=
  match given.setting? name with
  | none => .ok default
  | some value =>
    match read? value with
    | some setting => .ok setting
    | none => .error ⟨name, value, reason⟩

/-- The configuration of the environment. The first variable that is not understood
    is reported, in the order of the fields. -/
def fromVariables (processors : UInt64) (given : Variables) : Except ConfigError BuildConfig := do
  let base := standard processors given
  let maxJobs ← fromVariable given "PKGFIX_MAX_JOBS" "expected a positive integer" base.maxJobs readJobs?
  let checkPolicy ← fromVariable given "PKGFIX_CHECK" CheckPolicy.expectation base.checkPolicy CheckPolicy.parse?
  let retryAttempts ← fromVariable given "PKGFIX_RETRIES" "expected a non-negative integer" base.retryAttempts
    readRetries?
  let keepGoing ← fromVariable given "PKGFIX_KEEP_GOING" "expected a boolean" base.keepGoing readFlag?
  .ok { base with maxJobs, checkPolicy, retryAttempts, keepGoing }

/-- The JSON form of a configuration. -/
def toJson (config : BuildConfig) : Json := .record [
  ("max_jobs", .number config.maxJobs.toNat),
  ("check_policy", .text config.checkPolicy.name),
  ("retry_attempts", .number config.retryAttempts.toNat),
  ("keep_going", .flag config.keepGoing),
  ("store_root", .text config.storeRoot),
  ("shell", Json.orNull (config.shell.map .text))]

/-- Reads a configuration out of a JSON document; fields that are missing are as in
    the default. -/
def ofDocument? (default : BuildConfig) (document : Json.Document) : Option BuildConfig := do
  let fields ← document.fields?
    ["max_jobs", "check_policy", "retry_attempts", "keep_going", "store_root", "shell"]
  let maxJobs ← fields.withDefault? 0 default.maxJobs Json.Document.word64?
  let checkPolicy ← fields.withDefault? 1 default.checkPolicy CheckPolicy.ofDocument?
  let retryAttempts ← fields.withDefault? 2 default.retryAttempts Json.Document.word32?
  let keepGoing ← fields.withDefault? 3 default.keepGoing Json.Document.flag?
  let storeRoot ← fields.withDefault? 4 default.storeRoot Json.Document.text?
  let shell ← fields.withDefault? 5 default.shell (Json.Document.nullable? Json.Document.text?)
  some ⟨maxJobs, checkPolicy, retryAttempts, keepGoing, storeRoot, shell⟩

end BuildConfig
end Pkgset
