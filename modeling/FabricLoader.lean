import FabricLoader.Main
import FabricLoader.Proofs.Loader.Attempts
import FabricLoader.Proofs.Loader.Session
import FabricLoader.Proofs.Loader.Retry
import FabricLoader.Proofs.Loader.Configured
import FabricLoader.Proofs.Loader.Guarded
import FabricLoader.Proofs.Text.Numeral
import FabricLoader.Proofs.Source.Opening
import FabricLoader.Proofs.Source.Items
import FabricLoader.Proofs.Source.Declared
import FabricLoader.Proofs.Source.Heading
import FabricLoader.Proofs.Source.Stripped
import FabricLoader.Proofs.Text.Line
import FabricLoader.Proofs.Source.HeaderSearch
import FabricLoader.Proofs.Source.HeaderLines
import FabricLoader.Proofs.Source.Meaning
import FabricLoader.Proofs.Container.LittleEndian
import FabricLoader.Proofs.Container.Parts
import FabricLoader.Proofs.Container.RoundTrip
import FabricLoader.Proofs.Container.Format
import FabricLoader.Proofs.Container.Remainder
import FabricLoader.Proofs.Container.Corruption
import FabricLoader.Proofs.Block.History
import FabricLoader.Proofs.Apply.Simulation
import FabricLoader.Proofs.Apply.Calls
import FabricLoader.Proofs.Apply.Bulk
import FabricLoader.Proofs.Image.WellFormed
import FabricLoader.Proofs.Bus.Placement
import FabricLoader.Proofs.Bus.Mounting
import FabricLoader.Proofs.Bus.MountOrder
import FabricLoader.Proofs.Files.Written
import FabricLoader.Proofs.Loader.Naming
import FabricLoader.Proofs.Command.Packed
import FabricLoader.Proofs.Command.Interchange
import FabricLoader.Proofs.Command.Planned
import FabricLoader.Proofs.Loader.Requested
import FabricLoader.Proofs.Command.Foretold
import FabricLoader.Proofs.Loader.Alone
import FabricLoader.Proofs.Loader.Sequence
import FabricLoader.Proofs.Loader.Ranges
import FabricLoader.Proofs.Loader.Whole
import FabricLoader.Proofs.Loader.HostWrites
import FabricLoader.Proofs.Bus.Blocks
import FabricLoader.Proofs.Sink.Host
import FabricLoader.Sink.Lent
import FabricLoader.Proofs.Apply.Runs
import FabricLoader.Proofs.Sink.Traced
import FabricLoader.Proofs.Apply.Plain
import FabricLoader.Proofs.Apply.TableRuns
import FabricLoader.Proofs.Sink.Recorded
import FabricLoader.Proofs.Command.Agreement
import FabricLoader.Proofs.Source.Commented
import FabricLoader.Proofs.Console.Ledger
import FabricLoader.Proofs.Loader.Booked
import FabricLoader.Proofs.Command.Ledger
import FabricLoader.Proofs.Text.Digits
import FabricLoader.Proofs.Text.Trim
import FabricLoader.Proofs.Source.Literal
import FabricLoader.Proofs.Source.Places
import FabricLoader.Proofs.Bus.Lookup
