import Packetry.Main
import Packetry.Proofs.Tree
import Packetry.Proofs.Segments
import Packetry.Proofs.Walk
import Packetry.Proofs.Operation
import Packetry.Proofs.Replacement
import Packetry.Proofs.Commit
import Packetry.Proofs.Parents
import Packetry.Proofs.Staging
import Packetry.Proofs.AllOrNothing
import Packetry.Proofs.Missing
import Packetry.Proofs.Preparation
import Packetry.Proofs.Lines
import Packetry.Proofs.Sentinels
import Packetry.Proofs.Located
import Packetry.Proofs.Generated
import Packetry.Proofs.Additions
import Packetry.Proofs.Managed
import Packetry.Proofs.Hosted
import Packetry.Proofs.Scaffolded
import Packetry.Proofs.Succeeding
import Packetry.Proofs.Publishing
import Packetry.Proofs.Refreshed
import Packetry.Proofs.Idempotence
import Packetry.Proofs.SuccessfulRun
import Packetry.Proofs.DryRun
import Packetry.Proofs.Surroundings
import Packetry.Proofs.Stubs
import Packetry.Proofs.Declared
import Packetry.Proofs.Enumerators
import Packetry.Proofs.Recognised
import Packetry.Proofs.Blocks
import Packetry.Proofs.Compared
import Packetry.Proofs.Insertion
import Packetry.Proofs.Digests
import Packetry.Proofs.FailedRun
import Packetry.Proofs.PacketAdded
import Packetry.Proofs.Positions
import Packetry.Proofs.Interruption
import Packetry.Proofs.Crash
import Packetry.Proofs.Above
import Packetry.Proofs.Mirrored
import Packetry.Proofs.RegionLines
import Packetry.Proofs.Qualified
import Packetry.Proofs.Agreement
import Packetry.Proofs.Editing
import Packetry.Proofs.Interior
import Packetry.Proofs.RoundTrip
import Packetry.Proofs.Abandoned
import Packetry.Proofs.Separators
import Packetry.Proofs.Arguments
import Packetry.Proofs.Spliced
import Packetry.Proofs.Rehearsal
import Packetry.Proofs.Occurrences
import Packetry.Proofs.Signatures
import Packetry.Proofs.Permuted
import Packetry.Proofs.Listing
