import YulFuzz.Main
import YulFuzz.Proofs.Calls
import YulFuzz.Proofs.Counters
import YulFuzz.Proofs.InitBlocks
import YulFuzz.Proofs.LoopControl
import YulFuzz.Proofs.NormalForm
import YulFuzz.Proofs.Restoration
import YulFuzz.Proofs.Rotation
import YulFuzz.Proofs.Safety
import YulFuzz.Proofs.Stored.Spellings
import YulFuzz.Proofs.Switches
import YulFuzz.Proofs.Typing
import YulFuzz.Proofs.Nested
import YulFuzz.Proofs.VariableFrames
import YulFuzz.Proofs.Choice
import YulFuzz.Proofs.FunctionFrames
import YulFuzz.Proofs.CallChoice
import YulFuzz.Proofs.LiteralValues
import YulFuzz.Proofs.WordOrder
import YulFuzz.Proofs.TypedValues
import YulFuzz.Proofs.Appending
import YulFuzz.Proofs.Probing
import YulFuzz.Proofs.Dictionaries
import YulFuzz.Proofs.Size
import YulFuzz.Proofs.Commands
