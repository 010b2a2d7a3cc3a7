import ChipEight.Instruction.Mnemonic
import ChipEight.Json.Reader
import ChipEight.Proofs.Machine.Arithmetic
import ChipEight.Proofs.Machine.Counter
import ChipEight.Proofs.Machine.Drawing
import ChipEight.Proofs.Machine.KeyDelay
import ChipEight.Proofs.Machine.Outside
import ChipEight.Proofs.Machine.Redraw
import ChipEight.Proofs.Machine.Stores
import ChipEight.Proofs.Machine.Transfer
import ChipEight.Proofs.Memory.Writes
import ChipEight.Proofs.Playback.Budget
import ChipEight.Proofs.Playback.Display
import ChipEight.Proofs.Playback.Keys
import ChipEight.Proofs.Request.Handling
