import ConsoleHost.Console.Recorder
import ConsoleHost.Host.Bridge
import ConsoleHost.Main
import ConsoleHost.Proofs.Decimal.Search
import ConsoleHost.Proofs.Decimal.Printed
import ConsoleHost.Proofs.Decimal.RoundTrip
import ConsoleHost.Proofs.Decimal.Fewest
import ConsoleHost.Proofs.Console.Dialogues
import ConsoleHost.Proofs.Console.Faults
import ConsoleHost.Proofs.Guest.Runs
import ConsoleHost.Proofs.Guest.Cut
import ConsoleHost.Proofs.Host.Reachable
import ConsoleHost.Proofs.Host.Refinement
import ConsoleHost.Proofs.Host.Publishing
import ConsoleHost.Proofs.Guest.Linking
import ConsoleHost.Proofs.Guest.Instances
import ConsoleHost.Proofs.Guest.Executions
import ConsoleHost.Proofs.Guest.Stages
import ConsoleHost.Proofs.Guest.Steps
import ConsoleHost.Proofs.Guest.Publication
import ConsoleHost.Proofs.Host.Isolation
import ConsoleHost.Proofs.Console.Conservation
import ConsoleHost.Proofs.Guest.Conservation
import ConsoleHost.Proofs.Text.Encoding
import ConsoleHost.Proofs.Host.Echo
import ConsoleHost.Proofs.Console.Streams
import ConsoleHost.Proofs.Command.Arguments
import ConsoleHost.Proofs.Command.Sessions
import ConsoleHost.Proofs.Memory.Contents
import ConsoleHost.Proofs.Host.Storing
import ConsoleHost.Proofs.Guest.Memories
import ConsoleHost.Proofs.Console.Fields
import ConsoleHost.Proofs.Host.Windows
import ConsoleHost.Proofs.Decimal.Thresholds
import ConsoleHost.Proofs.Decimal.Forms
import ConsoleHost.Proofs.Decimal.Whole
import ConsoleHost.Proofs.Text.Segments
import ConsoleHost.Proofs.Console.Reading
import ConsoleHost.Proofs.Memory.Slices
import ConsoleHost.Proofs.Guest.Defects
import ConsoleHost.Proofs.Host.Composition
import ConsoleHost.Proofs.Host.Truncation
