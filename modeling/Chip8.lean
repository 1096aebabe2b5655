import Chip8.Config
import Chip8.Console.Input
import Chip8.Console.View
import Chip8.Debugger
import Chip8.Display
import Chip8.Keypad
import Chip8.Listing
import Chip8.Machine.Step
import Chip8.Main
import Chip8.Program.Job
import Chip8.Proofs.Addresses
import Chip8.Proofs.Agreement
import Chip8.Proofs.Alike
import Chip8.Proofs.Arithmetic
import Chip8.Proofs.Breakpoints
import Chip8.Proofs.Collection
import Chip8.Proofs.CommandLines
import Chip8.Proofs.Commands
import Chip8.Proofs.Congruence
import Chip8.Proofs.Control
import Chip8.Proofs.Devices
import Chip8.Proofs.Disassembly
import Chip8.Proofs.Dumps
import Chip8.Proofs.EmptyLine
import Chip8.Proofs.Expiry
import Chip8.Proofs.Faults
import Chip8.Proofs.Footprint
import Chip8.Proofs.History
import Chip8.Proofs.KeyWait
import Chip8.Proofs.Keys
import Chip8.Proofs.Lines
import Chip8.Proofs.Listing
import Chip8.Proofs.ListingText
import Chip8.Proofs.Loading
import Chip8.Proofs.LowerCase
import Chip8.Proofs.Mnemonics
import Chip8.Proofs.Numerals
import Chip8.Proofs.Pace
import Chip8.Proofs.Panes
import Chip8.Proofs.Progress
import Chip8.Proofs.Redraw
import Chip8.Proofs.RegisterNames
import Chip8.Proofs.Releases
import Chip8.Proofs.RoundTrip
import Chip8.Proofs.RunMode
import Chip8.Proofs.Sprite
import Chip8.Proofs.StackPane
import Chip8.Proofs.Step
import Chip8.Proofs.Stop
import Chip8.Proofs.Subroutine
import Chip8.Proofs.Tokens
import Chip8.Proofs.Transfer
import Chip8.Proofs.Views
import Chip8.Random.ChaCha
import Chip8.Runner.Clock
import Chip8.Screen.Ansi
import Chip8.Screen.Terminal
import Chip8.Timer
