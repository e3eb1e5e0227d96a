import Pkgset.Build.CancelToken
import Pkgset.Build.Sandbox
import Pkgset.Build.Script
import Pkgset.Build.Writer
import Pkgset.Compose.Holding
import Pkgset.Compose.Reader
import Pkgset.Compose.Writer
import Pkgset.Stage
import Pkgset.Store.Cache
import Pkgset.Tool.Table
import Pkgset.Proofs.Compose.Blocking
import Pkgset.Proofs.Compose.Deadlock
import Pkgset.Proofs.Build.Graph
import Pkgset.Proofs.Build.Report
import Pkgset.Proofs.Build.Books
import Pkgset.Proofs.Build.Moves
import Pkgset.Proofs.Build.Service
import Pkgset.Proofs.Build.Spawning
import Pkgset.Proofs.Build.Outcome
import Pkgset.Proofs.Compose.Meaning
import Pkgset.Proofs.Compose.Sealing
import Pkgset.Proofs.Compose.Lawful
import Pkgset.Proofs.Compose.Course
import Pkgset.Proofs.Compose.Ownership
import Pkgset.Proofs.Compose.Following
import Pkgset.Proofs.Compose.Agreement
import Pkgset.Proofs.Compose.Session
import Pkgset.Proofs.Compose.Once
import Pkgset.Proofs.Compose.Calm
import Pkgset.Proofs.Compose.Steady
import Pkgset.Proofs.Compose.Circles
import Pkgset.Proofs.Compose.Standstill
import Pkgset.Proofs.Compose.Crowd
import Pkgset.Proofs.Build.Exclusion
import Pkgset.Proofs.Text.Dict
import Pkgset.Proofs.Build.Completion
import Pkgset.Proofs.Compose.Reckoning
import Pkgset.Proofs.Compose.Computing
import Pkgset.Proofs.Compose.Confinement
import Pkgset.Proofs.Compose.Mirror
import Pkgset.Proofs.Stage.Chain
import Pkgset.Proofs.Stage.Isolation
import Pkgset.Proofs.Derivation.Printing
import Pkgset.Proofs.Derivation.Canonical
import Pkgset.Proofs.Derivation.Identity
import Pkgset.Proofs.Files.Spelling
import Pkgset.Proofs.Files.Tree
import Pkgset.Proofs.Files.Ways
import Pkgset.Proofs.Store.Site
import Pkgset.Proofs.Store.Making
import Pkgset.Proofs.Store.Keeping
import Pkgset.Proofs.Store.Custody
import Pkgset.Proofs.Build.Conservation
import Pkgset.Proofs.Store.Separate
import Pkgset.Proofs.Compose.Layers
import Pkgset.Proofs.Compose.Locality
import Pkgset.Proofs.Build.Cancellation
import Pkgset.Proofs.Build.Planning
import Pkgset.Proofs.Build.Stopping
import Pkgset.Proofs.Build.Halting
import Pkgset.Proofs.Build.Permits
import Pkgset.Proofs.Files.Listing
import Pkgset.Proofs.Store.Deeds
import Pkgset.Proofs.Store.Tampering
import Pkgset.Proofs.Text.Form
import Pkgset.Proofs.Text.Wire
import Pkgset.Proofs.Build.Attempts
import Pkgset.Proofs.Build.Calling
import Pkgset.Proofs.Compose.Diagnosis
import Pkgset.Proofs.Compose.Defaults
import Pkgset.Proofs.Compose.Dues
import Pkgset.Proofs.Compose.Settling
import Pkgset.Proofs.Compose.Directness
import Pkgset.Proofs.Compose.Returning
import Pkgset.Proofs.Files.Telling
import Pkgset.Proofs.Build.Closure
import Pkgset.Proofs.Build.Waves
import Pkgset.Proofs.Compose.Injection
import Pkgset.Proofs.Compose.Checking
import Pkgset.Proofs.Compose.Provision
import Pkgset.Proofs.Compose.Binding
import Pkgset.Proofs.Build.Retries
import Pkgset.Proofs.Build.Seclusion
