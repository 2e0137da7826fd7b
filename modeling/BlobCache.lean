import BlobCache.Main
import BlobCache.Proofs.Action
import BlobCache.Proofs.Arena
import BlobCache.Proofs.Cache.Operation
import BlobCache.Proofs.Cache.Sweep
import BlobCache.Proofs.Cache.Run
import BlobCache.Proofs.Cache.Ledger
import BlobCache.Proofs.Cache.Soundness
import BlobCache.Proofs.Cache.Opening
import BlobCache.Proofs.Cache.Consistency
import BlobCache.Proofs.Cache.Housekeeping
import BlobCache.Proofs.Cache.Descent
import BlobCache.Proofs.Cache.Conservation
import BlobCache.Proofs.Cache.Unmapping
import BlobCache.Proofs.Cache.Deletion
import BlobCache.Proofs.Cache.Idleness
import BlobCache.Proofs.Disk.Folder
import BlobCache.Proofs.Disk.File
import BlobCache.Proofs.Disk.Interruption
import BlobCache.Proofs.Text.Utf8
import BlobCache.Proofs.Labels.Header
import BlobCache.Proofs.Labels.Format
import BlobCache.Proofs.ObjectDir.Slot
import BlobCache.Proofs.ObjectDir.Store
import BlobCache.Proofs.ObjectDir.Opening
import BlobCache.Proofs.ObjectDir.SlotMap
import BlobCache.Proofs.ObjectDir.Refinement
import BlobCache.Proofs.ObjectDir.Crash
import BlobCache.Proofs.Cache.Chronicle
import BlobCache.Proofs.Cache.Filing
import BlobCache.Proofs.Cache.Loading
import BlobCache.Proofs.Cache.Bodies
import BlobCache.Proofs.Cache.Persistence
import BlobCache.Proofs.ObjectDir.Access
import BlobCache.Proofs.ObjectDir.Registration
import BlobCache.Proofs.ObjectDir.Coverage
import BlobCache.Proofs.ObjectDir.Effect
import BlobCache.Proofs.ObjectDir.Sharing
import BlobCache.Proofs.ObjectDir.Forgetting
import BlobCache.Proofs.Cache.Generations
import BlobCache.Proofs.Cache.Refusal
import BlobCache.Proofs.Cache.Lookup
import BlobCache.Proofs.Cache.Removal
import BlobCache.Proofs.Session.Visit
import BlobCache.Proofs.Session.Work
import BlobCache.Proofs.Session.Refinement
import BlobCache.Proofs.Text.WellFormed
import BlobCache.Proofs.Labels.Grammar
import BlobCache.Proofs.ObjectDir.Abandoning
import BlobCache.Proofs.Cache.Tolerance
import BlobCache.Proofs.ObjectDir.FastPath
import BlobCache.Proofs.Cache.Wrapping
import BlobCache.Proofs.Cache.Adding
import BlobCache.Proofs.Cache.Finding
import BlobCache.Proofs.Cache.RoundTrip
import BlobCache.Proofs.Cache.Phases
import BlobCache.Proofs.Arena.Run
import BlobCache.Proofs.Path
import BlobCache.Proofs.Disk.Making
import BlobCache.Proofs.Toml.Quotation
import BlobCache.Proofs.Toml.Word
import BlobCache.Proofs.Toml.Statement
import BlobCache.Proofs.Config.Document
import BlobCache.Proofs.Config.Saving
import BlobCache.Proofs.ObjectDir.Rationing
import BlobCache.Proofs.Session.Recovery
import BlobCache.Proofs.ObjectDir.Naming
import BlobCache.Proofs.Labels.Visible
import BlobCache.Proofs.Cache.Listing
