import FpgaCard.Attachment
import FpgaCard.Board
import FpgaCard.CardError
import FpgaCard.Checksum
import FpgaCard.Chunks
import FpgaCard.Command.Argument
import FpgaCard.Command.Basic
import FpgaCard.Command.Folder
import FpgaCard.Command.Help
import FpgaCard.Command.Invocation
import FpgaCard.Command.Run
import FpgaCard.Command.Words
import FpgaCard.Completion
import FpgaCard.Discovery
import FpgaCard.Endpoint.Memory
import FpgaCard.Endpoint.Region
import FpgaCard.Endpoint.Register
import FpgaCard.Engine.Basic
import FpgaCard.Engine.Transfer
import FpgaCard.FileTree
import FpgaCard.Gate
import FpgaCard.Hardware
import FpgaCard.HostError
import FpgaCard.Layout
import FpgaCard.LittleEndian
import FpgaCard.LittleEndian.Lemmas
import FpgaCard.Locking
import FpgaCard.Main
import FpgaCard.Memory
import FpgaCard.Passthrough.Binding
import FpgaCard.Passthrough.Card
import FpgaCard.Passthrough.Device
import FpgaCard.Passthrough.Host
import FpgaCard.Passthrough.InterruptThread
import FpgaCard.Progress
import FpgaCard.Proofs.Accesses
import FpgaCard.Proofs.Answers
import FpgaCard.Proofs.Attaching
import FpgaCard.Proofs.Boards
import FpgaCard.Proofs.Calls
import FpgaCard.Proofs.Checksum
import FpgaCard.Proofs.Confinement
import FpgaCard.Proofs.Corruption
import FpgaCard.Proofs.Custody
import FpgaCard.Proofs.Driver
import FpgaCard.Proofs.EndpointArithmetic
import FpgaCard.Proofs.EndpointRead
import FpgaCard.Proofs.EndpointWrite
import FpgaCard.Proofs.Exclusive
import FpgaCard.Proofs.Faults
import FpgaCard.Proofs.Fitted
import FpgaCard.Proofs.FlatMemory
import FpgaCard.Proofs.Forwarding
import FpgaCard.Proofs.Healthy
import FpgaCard.Proofs.Ledger
import FpgaCard.Proofs.MappedSpaces
import FpgaCard.Proofs.Memory
import FpgaCard.Proofs.MemoryText
import FpgaCard.Proofs.Movement
import FpgaCard.Proofs.NodeNames
import FpgaCard.Proofs.Nodes
import FpgaCard.Proofs.Numbering
import FpgaCard.Proofs.Numerals
import FpgaCard.Proofs.Openers
import FpgaCard.Proofs.PlanArithmetic
import FpgaCard.Proofs.Plans
import FpgaCard.Proofs.Positions
import FpgaCard.Proofs.Reach
import FpgaCard.Proofs.RegionRead
import FpgaCard.Proofs.RegionSpecs
import FpgaCard.Proofs.RegionWrite
import FpgaCard.Proofs.Schedule
import FpgaCard.Proofs.Sharing
import FpgaCard.Proofs.Signals
import FpgaCard.Proofs.Steps
import FpgaCard.Proofs.TableBuilder
import FpgaCard.Proofs.TableFormat
import FpgaCard.Proofs.TableSources
import FpgaCard.Proofs.TableSpan
import FpgaCard.Proofs.Teardown
import FpgaCard.Proofs.Tenancy
import FpgaCard.Proofs.Traffic
import FpgaCard.Proofs.Undisturbed
import FpgaCard.Proofs.Usable
import FpgaCard.Proofs.Utf8
import FpgaCard.Proofs.Waiting
import FpgaCard.Proofs.WholeWrite
import FpgaCard.Proofs.WindowReads
import FpgaCard.Proofs.WordArithmetic
import FpgaCard.Proofs.Words
import FpgaCard.Register
import FpgaCard.Session
import FpgaCard.Settings
import FpgaCard.Simulation.Card
import FpgaCard.Simulation.DeviceTree
import FpgaCard.Simulation.Host
import FpgaCard.Simulation.HostBuffer
import FpgaCard.Simulation.Probe
import FpgaCard.Simulation.Rig
import FpgaCard.Simulation.Workbench
import FpgaCard.Table.Basic
import FpgaCard.Table.Builder
import FpgaCard.Table.Coe
import FpgaCard.Table.Entry
import FpgaCard.Table.Listing
import FpgaCard.Table.Records
import FpgaCard.Table.Window
import FpgaCard.Text.Blank
import FpgaCard.Text.CharRange
import FpgaCard.Text.Hex
import FpgaCard.Text.Mark
import FpgaCard.Text.Number
import FpgaCard.Text.Path
import FpgaCard.Text.Unseen
import FpgaCard.Text.Utf8
