import SwitchMib.Agent
import SwitchMib.Document.Address
import SwitchMib.Main
import SwitchMib.Proofs.Mib.Cells
import SwitchMib.Proofs.Snmp.Overlap
import SwitchMib.Scheduler
import SwitchMib.Proofs.Text.Numeral
import SwitchMib.Proofs.Net.IfName
import SwitchMib.Proofs.Dict
import SwitchMib.Proofs.Identity.Membership
import SwitchMib.Proofs.Identity.Strict
import SwitchMib.Proofs.Mib.Counters
import SwitchMib.Proofs.Identity.Inverse
import SwitchMib.Proofs.Mib.Commits
import SwitchMib.Proofs.Mib.Learned
import SwitchMib.Proofs.Config.HostFirst
import SwitchMib.Proofs.Agent.Unseen
import SwitchMib.Proofs.Mib.Degraded
import SwitchMib.Proofs.Mib.Union
import SwitchMib.Proofs.Snmp.Admission
import SwitchMib.Proofs.Agent.Start
import SwitchMib.Proofs.Agent.Validated
import SwitchMib.Proofs.Store.Aggregated
import SwitchMib.Proofs.Mib.QueueRows
import SwitchMib.Proofs.Identity.Visits
import SwitchMib.Proofs.Scheduler
import SwitchMib.Proofs.Mib.InterfaceRows
import SwitchMib.Proofs.Identity.Groups
import SwitchMib.Proofs.Identity.QueueLists
import SwitchMib.Proofs.Mib.IndexCells
import SwitchMib.Proofs.Mib.NextHops
import SwitchMib.Proofs.Mib.NeighbourRows
import SwitchMib.Proofs.Mib.OverlayRows
import SwitchMib.Proofs.Mib.SensorCells
import SwitchMib.Proofs.Mib.SupplyRows
import SwitchMib.Proofs.Config.Placements
import SwitchMib.Proofs.Mib.IgnoredRows
import SwitchMib.Proofs.Net.Blocks
import SwitchMib.Proofs.Net.NamePatterns
import SwitchMib.Proofs.Net.MacNotation
import SwitchMib.Proofs.Mib.OverlayKeys
import SwitchMib.Proofs.Net.RoundTrips
import SwitchMib.Snmp.RowIndex
import SwitchMib.Proofs.Snmp.RowIndex
import SwitchMib.Proofs.Snmp.WalkOrder
import SwitchMib.Proofs.Mib.Asked
