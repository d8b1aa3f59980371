import IfaceTable.Main
import IfaceTable.Registry.History
import IfaceTable.Registry.Traversal
import IfaceTable.Proofs.Absorb
import IfaceTable.Proofs.Upkeep
import IfaceTable.Proofs.BaseNames
import IfaceTable.Proofs.Reported
import IfaceTable.Proofs.Populate
import IfaceTable.Proofs.Distribution
import IfaceTable.Proofs.Convergence
import IfaceTable.Proofs.Modes
import IfaceTable.Proofs.Refresh
import IfaceTable.Proofs.VifNumbers
import IfaceTable.Proofs.Retry
import IfaceTable.Proofs.KernelNames
import IfaceTable.Proofs.MissedGains
import IfaceTable.Proofs.Seek
import IfaceTable.Proofs.Searches
import IfaceTable.Proofs.Interruption
import IfaceTable.Proofs.KernelIndexes
import IfaceTable.Proofs.StatusTable
import IfaceTable.Proofs.AddressTexts
import IfaceTable.Proofs.Rendering
import IfaceTable.Proofs.Elementary
import IfaceTable.Proofs.Reload
import IfaceTable.Proofs.RegisteredWalks
import IfaceTable.Proofs.Pinning
import IfaceTable.Proofs.Decoding
import IfaceTable.Proofs.NameCuts
import IfaceTable.Proofs.QueriedIndexes
import IfaceTable.Proofs.Traversals
import IfaceTable.Proofs.StatusOutput
import IfaceTable.Proofs.FilteredQueries
import IfaceTable.Proofs.FlagNames
import IfaceTable.Proofs.SlotCommands
import IfaceTable.Proofs.DottedTexts
