import ScionInt.Wire.Bytes
import ScionInt.Wire.Header
import ScionInt.Wire.OnesComplement
import ScionInt.Wire.Parser
import ScionInt.Wire.Varint
import ScionInt.Wire.Scan
import ScionInt.Wire.Table
import ScionInt.Wire.Hex
import ScionInt.Wire.Text
import ScionInt.Wire.Decimal
import ScionInt.Wire.Framing
import ScionInt.Wire.Inlay
import ScionInt.Wire.Repetition
import ScionInt.DataPlane.Headers
import ScionInt.DataPlane.Parser
import ScionInt.DataPlane.Switch
import ScionInt.DataPlane.Equiv.ScionParser
import ScionInt.DataPlane.Equiv.Parser
import ScionInt.DataPlane.Equiv.IntSwitch
import ScionInt.DataPlane.Equiv.Frame
import ScionInt.DataPlane.Equiv.Slices
import ScionInt.DataPlane.Equiv.Switch
import ScionInt.DataPlane.Equiv.L2Switch
import ScionInt.DataPlane.Equiv.Checksum
import ScionInt.DataPlane.Equiv.Verification
import ScionInt.DataPlane.Equiv.Confinement
import ScionInt.DataPlane.Equiv.SourceSink
import ScionInt.DataPlane.Equiv.Deletion
import ScionInt.DataPlane.Equiv.Accumulation
import ScionInt.ControlPlane.TakeUint
import ScionInt.ControlPlane.IntController
import ScionInt.ControlPlane.MacLearn
import ScionInt.ControlPlane.Arbitration
import ScionInt.ControlPlane.StaticEntries
import ScionInt.ControlPlane.AddressConversion
import ScionInt.ControlPlane.ReadIntTable
import ScionInt.ControlPlane.TcpClient
import ScionInt.ControlPlane.ReportFormat
import ScionInt.ControlPlane.Equiv.Bitstring
import ScionInt.ControlPlane.Equiv.StaticEntries
import ScionInt.ControlPlane.Equiv.Policy
import ScionInt.ControlPlane.Equiv.AddressConversion
import ScionInt.ControlPlane.Equiv.ReadIntTable
import ScionInt.ControlPlane.Equiv.Reads
import ScionInt.ControlPlane.Equiv.Layout
import ScionInt.ControlPlane.Equiv.Clone
import ScionInt.ControlPlane.Equiv.HopLoop
import ScionInt.ControlPlane.Equiv.Report
import ScionInt.ControlPlane.Equiv.HopOrder
import ScionInt.ControlPlane.Equiv.MacLearn
import ScionInt.ControlPlane.Equiv.Learning
import ScionInt.ControlPlane.Equiv.Delivery
import ScionInt.ControlPlane.Equiv.Published
import ScionInt.ControlPlane.Equiv.Topic
import ScionInt.ControlPlane.Equiv.TcpClient
import ScionInt.ControlPlane.Equiv.ReportStream
import ScionInt.ControlPlane.Run
import ScionInt.ControlPlane.Construction
import ScionInt.ControlPlane.System
import ScionInt.ControlPlane.Equiv.System
import ScionInt.ControlPlane.Equiv.Installed
import ScionInt.ControlPlane.Equiv.PacketIns
import ScionInt.ControlPlane.Equiv.Reported
import ScionInt.ControlPlane.Equiv.Exit
import ScionInt.ControlPlane.Equiv.Texts
import ScionInt.ControlPlane.Equiv.Construction
import ScionInt.DataPlane.L2SwitchGrpc
import ScionInt.DataPlane.Equiv.Passing
import ScionInt.DataPlane.Equiv.Rewriting
import ScionInt.DataPlane.Equiv.Protection
import ScionInt.DataPlane.Equiv.Receiver
import ScionInt.DataPlane.Equiv.Sources
import ScionInt.DataPlane.Equiv.L2SwitchGrpc
import ScionInt.Wire.Simulation
import ScionInt.ControlPlane.EthernetSystem
import ScionInt.ControlPlane.Equiv.EthernetSystem
import ScionInt.ControlPlane.Equiv.Path
