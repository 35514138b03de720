import CallContracts.Logging.State
import CallContracts.Main
import CallContracts.Proofs.CommandLine.Checking
import CallContracts.Proofs.Enforcement.Currying
import CallContracts.Proofs.Enforcement.Directions
import CallContracts.Proofs.Enforcement.Idempotence
import CallContracts.Proofs.Enforcement.Keywords
import CallContracts.Proofs.Enforcement.Outcome
import CallContracts.Proofs.Enforcement.Shortening
import CallContracts.Proofs.Enforcement.WellFormed
import CallContracts.Proofs.Logging.Resetting
import CallContracts.Proofs.Registry.Acyclic
import CallContracts.Proofs.Registry.Bounds
import CallContracts.Proofs.Registry.Intersection
import CallContracts.Proofs.Registry.Label
import CallContracts.Proofs.Registry.Referenceable
import CallContracts.Proofs.Registry.Trimming
import CallContracts.Proofs.Registry.Whole
import CallContracts.Proofs.Session.Facade
import CallContracts.Proofs.Signature.Joining
import CallContracts.Proofs.Signature.NormalForm
import CallContracts.Proofs.World.Finishing
