import StxSnmp.Library.Transducer
import StxSnmp.Library.Simulation
import StxSnmp.Library.Lexicographic
import StxSnmp.Library.LinearSearch
import StxSnmp.Library.Handles
import StxSnmp.Library.Displacement
import StxSnmp.Library.MachineInt
import StxSnmp.Library.Nesting
import StxSnmp.Library.Segments
import StxSnmp.Library.OptionalFields
import StxSnmp.Library.Monitor
import StxSnmp.Library.Ownership
import StxSnmp.Library.SectionedLog
import StxSnmp.Library.PrefixReader
import StxSnmp.Library.LinkedList
import StxSnmp.Library.Throttle
import StxSnmp.Snmp.Oid
import StxSnmp.Audit.Plugin
import StxSnmp.Audit.Once
import StxSnmp.Audit.InvalidOids
import StxSnmp.Audit.Log
import StxSnmp.FmAgent.Session
import StxSnmp.FmAgent.Scan
import StxSnmp.FmAgent.Request
import StxSnmp.FmAgent.RowCache
import StxSnmp.FmAgent.SessionLife
import StxSnmp.FmAgent.Walk
import StxSnmp.FmAgent.Versions
import StxSnmp.FmAgent.Visibility
import StxSnmp.FmAgent.WalkOrder
import StxSnmp.FmAgent.Independence
import StxSnmp.FmAgent.Provenance
import StxSnmp.FmAgent.CountAge
import StxSnmp.FmAgent.Database
import StxSnmp.FmAgent.Index
import StxSnmp.FmAgent.Lookup
import StxSnmp.FmAgent.Uuid
import StxSnmp.FmAgent.Reload
import StxSnmp.FmAgent.Memory
import StxSnmp.FmAgent.Enumeration
import StxSnmp.FmAgent.MemoryAgent
import StxSnmp.FmAgent.CachedTable
import StxSnmp.FmAgent.Recovery
import StxSnmp.FmAgent.ScanInvariant
import StxSnmp.FmAgent.QueryRate
import StxSnmp.FmAgent.Freshness
import StxSnmp.TrapServer.Messages
import StxSnmp.TrapServer.Runs
import StxSnmp.TrapServer.Startup
import StxSnmp.TrapServer.Lifetime
import StxSnmp.TrapServer.Reception
import StxSnmp.TrapServer.LengthLoop
import StxSnmp.TrapServer.Resources
import StxSnmp.TrapServer.Subagent
import StxSnmp.TrapServer.Signals
import StxSnmp.Trap.JsonC
import StxSnmp.Trap.Senders
import StxSnmp.Trap.Notification
import StxSnmp.Trap.EventMessage
import StxSnmp.Trap.Dispatch
import StxSnmp.Trap.Objects
import StxSnmp.Trap.WellFormed
import StxSnmp.TrapServer.Relay
import StxSnmp.TrapServer.Trailing
import StxSnmp.TrapServer.SharedObjects
import StxSnmp.TrapServer.ProcessMemory
import StxSnmp.Trap.Buffer
