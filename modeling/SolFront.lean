import SolFront.Main
import SolFront.Proofs.CommandLine.FileRun
import SolFront.Proofs.Confinement
import SolFront.Proofs.Documents
import SolFront.Proofs.FileSources
import SolFront.Proofs.Import.Comments
import SolFront.Proofs.Import.Completion
import SolFront.Proofs.Import.Escape
import SolFront.Proofs.Import.Layout
import SolFront.Proofs.Import.Neighbours
import SolFront.Proofs.Import.Preservation
import SolFront.Proofs.Import.Resolution
import SolFront.Proofs.Import.Rewording
import SolFront.Proofs.Import.Rounds
import SolFront.Proofs.Json.Reformat
import SolFront.Proofs.MissingUnits
import SolFront.Proofs.Path.Joining
import SolFront.Proofs.Path.Relative
import SolFront.Proofs.Probing
import SolFront.Proofs.Queries
import SolFront.Proofs.SearchPath
import SolFront.Proofs.SecondRun
import SolFront.Proofs.SelfContained
import SolFront.Proofs.Spelling
import SolFront.Proofs.Validity
import SolFront.Proofs.Version
