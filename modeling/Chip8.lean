import Chip8.Main
import Chip8.Proofs.Machine.Faults
import Chip8.Proofs.Machine.Footprint
import Chip8.Storage.Directory
import Chip8.Proofs.Screen.Parity
import Chip8.Proofs.Machine.Glyphs
import Chip8.Proofs.Machine.Halted
import Chip8.Proofs.Machine.Frame
import Chip8.Proofs.Machine.History
import Chip8.Proofs.Machine.KeyWait
import Chip8.Proofs.Machine.Calls
import Chip8.Proofs.Screen.Draws
import Chip8.Proofs.Screen.Mirror
import Chip8.Proofs.Machine.FrameLength
import Chip8.Proofs.Machine.Mnemonics
import Chip8.Proofs.Machine.Noninterference
import Chip8.Proofs.Machine.Tracing
import Chip8.Proofs.Screen.Views
import Chip8.Proofs.Machine.Sprites
import Chip8.Proofs.Keypad.Events
import Chip8.Proofs.Startup.Defaults
import Chip8.Proofs.Number.Binary64
import Chip8.Proofs.Session.Rounds
import Chip8.Proofs.Machine.Successor
import Chip8.Proofs.Machine.Arithmetic
import Chip8.Proofs.Machine.Transfers
import Chip8.Proofs.Instruction.Patterns
import Chip8.Proofs.Machine.PowerOn
import Chip8.Proofs.Machine.Dump
import Chip8.Proofs.Machine.Countdown
import Chip8.Proofs.Screen.CollisionCount
import Chip8.Proofs.Keypad.Keymap
import Chip8.Proofs.Keypad.Queue
import Chip8.Proofs.Session.Pace
import Chip8.Proofs.Startup.Stages
import Chip8.Proofs.Memory.Access
import Chip8.Proofs.Memory.Protection
import Chip8.Proofs.CommandLine.Accepted
import Chip8.Proofs.CommandLine.Reload
import Chip8.Proofs.Session.Errors
import Chip8.Proofs.Startup.CommandLine
