import ChipEight.Text.Hex
import ChipEight.Memory
import ChipEight.Registers
import ChipEight.Screen.Sprite
import ChipEight.Screen.Text
import ChipEight.Keyboard
import ChipEight.Settings
import ChipEight.Random.Stream
import ChipEight.Machine.Action
import ChipEight.CommandLine.Read
import ChipEight.Session.Run
import ChipEight.Main
import ChipEight.Proofs.Instruction.Footprint
import ChipEight.Proofs.Instruction.Words
import ChipEight.Proofs.Instruction.Table
import ChipEight.Proofs.Instruction.Patterns
import ChipEight.Proofs.Instruction.Registers
import ChipEight.Proofs.Instruction.Calls
import ChipEight.Proofs.Machine.Step
import ChipEight.Proofs.Machine.Frame
import ChipEight.Proofs.Machine.Edit
import ChipEight.Proofs.Machine.Undo
import ChipEight.Proofs.Machine.Viewing
import ChipEight.Proofs.Machine.Calls
import ChipEight.Proofs.Machine.Nesting
import ChipEight.Proofs.Machine.Limits
import ChipEight.Proofs.Machine.Waiting
import ChipEight.Proofs.Machine.Cancelling
import ChipEight.Proofs.Machine.Stopping
import ChipEight.Proofs.Machine.Forgetting
import ChipEight.Proofs.Machine.Redraw
import ChipEight.Proofs.Machine.Replay
import ChipEight.Proofs.Machine.Effects
import ChipEight.Proofs.Machine.Course
import ChipEight.Proofs.Machine.Chance
import ChipEight.Proofs.Machine.Background
import ChipEight.Proofs.Machine.Roles
import ChipEight.Proofs.Session.Cadence
import ChipEight.Proofs.Session.Pace
import ChipEight.Proofs.Session.Rendering
import ChipEight.Proofs.Machine.Decoding
import ChipEight.Proofs.Machine.Ordering
import ChipEight.Proofs.Machine.Loading
import ChipEight.Proofs.Session.Keys
import ChipEight.Proofs.Machine.Arithmetic
import ChipEight.Proofs.Machine.Spilling
import ChipEight.Proofs.Machine.Drawing
import ChipEight.Proofs.Screen.Glyphs
import ChipEight.Proofs.Screen.Renderings
import ChipEight.Proofs.Machine.Overdrawing
import ChipEight.Proofs.Machine.Numerals
import ChipEight.Proofs.Machine.Drifting
import ChipEight.Proofs.Machine.Reporting
import ChipEight.Proofs.Memory
import ChipEight.Proofs.Checked.Arithmetic
import ChipEight.Proofs.Checked.Storage
import ChipEight.Proofs.Checked.Blocks
import ChipEight.Proofs.Checked.Transfer
import ChipEight.Proofs.Checked.Drawing
import ChipEight.Proofs.Checked.Instructions
import ChipEight.Proofs.Checked.Runs
