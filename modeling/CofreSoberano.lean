import CofreSoberano.Std.Machine
import CofreSoberano.Std.KeyedMap
import CofreSoberano.Std.Cbor
import CofreSoberano.Std.OrderedMap
import CofreSoberano.Audit.History
import CofreSoberano.Audit.ChainLink
import CofreSoberano.Channel.Fifo
import CofreSoberano.Channel.Publication
import CofreSoberano.Gateway.AcceptLoop
import CofreSoberano.Transport.Integrity
import CofreSoberano.Transport.Completion
import CofreSoberano.Transport.Agreement
import CofreSoberano.Transport.RoundTrip
import CofreSoberano.Gateway.Config
import CofreSoberano.Gateway.Sni
import CofreSoberano.Gateway.SniAgreement
import CofreSoberano.Channel.Drained
import CofreSoberano.Gateway.Addition
import CofreSoberano.Gateway.Limits
import CofreSoberano.Gateway.Triggers
import CofreSoberano.Gateway.Shutdown
import CofreSoberano.Gateway.Drain
import CofreSoberano.Gateway.Removal
import CofreSoberano.Std.MountainRange
import CofreSoberano.Audit.Chain
import CofreSoberano.Audit.Sealing
import CofreSoberano.Audit.MerkleRoot
import CofreSoberano.Audit.Tampering
import CofreSoberano.Audit.Truncation
import CofreSoberano.Channel.Exit
import CofreSoberano.Std.Threads
import CofreSoberano.Transport.Accounting
import CofreSoberano.Transport.StreamRefinement
import CofreSoberano.Gateway.SniRouting
import CofreSoberano.Gateway.Isolation
import CofreSoberano.Gateway.Routes
import CofreSoberano.Gateway.Convergence
import CofreSoberano.Audit.Export
import CofreSoberano.Audit.Inspection
import CofreSoberano.Channel.Termination
import CofreSoberano.Gateway.Admission
import CofreSoberano.Gateway.Lockout
import CofreSoberano.Gateway.SegmentCounter
import CofreSoberano.Gateway.Session
import CofreSoberano.Gateway.Sweep
import CofreSoberano.Gateway.Exposition
