import Pkgset.Json.Document

/-!
# Platforms and platform triples

A platform names where code runs: a processor architecture and an operating
system, written `arch-os`. A triple names the machine that builds, the machine
that runs the result, and the machine that the result makes code for.
-/

namespace Pkgset

/-- Processor architectures. -/
inductive Arch where
  | x86_64 | aarch64 | armv7l | i686 | riscv64 | wasm32
  deriving DecidableEq, Repr

/-- Operating systems; `freestanding` is a machine without one. -/
inductive Os where
  | linux | macOs | windows | freestanding
  deriving DecidableEq, Repr

/-- Where code runs. -/
structure Platform where
  arch : Arch
  os : Os
  deriving DecidableEq, Repr

/-- Why a text names no platform. -/
inductive PlatformError where
  | unknownArch (text : String)
  | unknownOs (text : String)
  | malformed (text : String)
  deriving DecidableEq, Repr

/-- The wording of a platform error. -/
def PlatformError.message : PlatformError → String
  | .unknownArch text => "unknown architecture: " ++ text
  | .unknownOs text => "unknown operating system: " ++ text
  | .malformed text => "invalid platform '" ++ text ++ "': expected <arch>-<os>"

namespace Arch

/-- The name written in platform texts. -/
def name : Arch → String
  | .x86_64 => "x86_64"
  | .aarch64 => "aarch64"
  | .armv7l => "armv7l"
  | .i686 => "i686"
  | .riscv64 => "riscv64"
  | .wasm32 => "wasm32"

/-- Reads a name; some architectures have a second one. -/
def parse (text : String) : Except PlatformError Arch :=
  if text = "x86_64" then .ok .x86_64
  else if text = "aarch64" ∨ text = "arm64" then .ok .aarch64
  else if text = "armv7l" ∨ text = "arm" then .ok .armv7l
  else if text = "i686" ∨ text = "x86" then .ok .i686
  else if text = "riscv64" then .ok .riscv64
  else if text = "wasm32" then .ok .wasm32
  else .error (.unknownArch text)

/-- The place in the order of architectures. -/
def rank : Arch → Nat
  | .x86_64 => 0
  | .aarch64 => 1
  | .armv7l => 2
  | .i686 => 3
  | .riscv64 => 4
  | .wasm32 => 5

end Arch

namespace Os

/-- The name written in platform texts. -/
def name : Os → String
  | .linux => "linux"
  | .macOs => "darwin"
  | .windows => "windows"
  | .freestanding => "none"

/-- Reads a name; one system has two. -/
def parse (text : String) : Except PlatformError Os :=
  if text = "linux" then .ok .linux
  else if text = "darwin" ∨ text = "macos" then .ok .macOs
  else if text = "windows" then .ok .windows
  else if text = "none" then .ok .freestanding
  else .error (.unknownOs text)

/-- The place in the order of operating systems. -/
def rank : Os → Nat
  | .linux => 0
  | .macOs => 1
  | .windows => 2
  | .freestanding => 3

end Os

namespace Platform

/-- The platform text. -/
def name (platform : Platform) : String := platform.arch.name ++ "-" ++ platform.os.name

/-- Reads a platform text, cut at its first hyphen; the architecture is read first. -/
def parse (text : String) : Except PlatformError Platform :=
  match text.toList.span (· ≠ '-') with
  | (_, []) => .error (.malformed text)
  | (before, _ :: after) => do
    let arch ← Arch.parse (String.ofList before)
    let os ← Os.parse (String.ofList after)
    .ok ⟨arch, os⟩

/-- Reads a platform out of a JSON document. -/
def ofDocument? (document : Json.Document) : Option Platform := do
  let text ← document.text?
  (parse text).toOption

end Platform

/-- The build, host and target platforms of a stage. -/
structure PlatformTriple where
  build : Platform
  host : Platform
  target : Platform
  deriving DecidableEq, Repr

namespace PlatformTriple

/-- The triple of one platform three times. -/
def native (platform : Platform) : PlatformTriple := ⟨platform, platform, platform⟩

/-- Reads three platform texts, in the order build, host, target. -/
def parse (build host target : String) : Except PlatformError PlatformTriple := do
  let build ← Platform.parse build
  let host ← Platform.parse host
  let target ← Platform.parse target
  .ok ⟨build, host, target⟩

/-- Results run on the machine that builds them. -/
def isNative (triple : PlatformTriple) : Bool := triple.build = triple.host

/-- Results run on another machine than the one that builds them. -/
def isCross (triple : PlatformTriple) : Bool := !triple.isNative

/-- The text of a triple. -/
def name (triple : PlatformTriple) : String :=
  "(" ++ triple.build.name ++ ", " ++ triple.host.name ++ ", " ++ triple.target.name ++ ")"

/-- The key that orders triples: build, host, target, each by architecture first. -/
def rank (triple : PlatformTriple) : List Nat :=
  [triple.build, triple.host, triple.target].flatMap fun platform => [platform.arch.rank, platform.os.rank]

/-- Triples in ascending order; equal ones keep their places. -/
def sort (triples : List PlatformTriple) : List PlatformTriple :=
  triples.mergeSort fun a b => !List.lex b.rank a.rank (· < ·)

/-- The JSON form of a triple. -/
def toJson (triple : PlatformTriple) : Json := .record [
  ("build", .text triple.build.name),
  ("host", .text triple.host.name),
  ("target", .text triple.target.name)]

/-- Reads a triple out of a JSON document. -/
def ofDocument? (document : Json.Document) : Option PlatformTriple := do
  let fields ← document.fields? ["build", "host", "target"]
  let build ← fields.required? 0 Platform.ofDocument?
  let host ← fields.required? 1 Platform.ofDocument?
  let target ← fields.required? 2 Platform.ofDocument?
  some ⟨build, host, target⟩

end PlatformTriple
end Pkgset
