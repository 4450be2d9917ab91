import StackLang.Assembly.Native
import StackLang.Assembly.Routine
import StackLang.Block
import StackLang.Main
import StackLang.Sample
import StackLang.Proofs.Linking.Reader
import StackLang.Proofs.Linking.Walk
import StackLang.Proofs.Linking.Structure
import StackLang.Proofs.Linking.Diagnosis
import StackLang.Proofs.Machine.Run
import StackLang.Proofs.Machine.Structured
import StackLang.Proofs.Assembly.Layout
import StackLang.Proofs.Assembly.Simulation
import StackLang.Proofs.Assembly.Reading
import StackLang.Proofs.Assembly.Routine
import StackLang.Proofs.Lint.Safety
import StackLang.Proofs.Lint.Pairing
import StackLang.Proofs.Loading
import StackLang.Proofs.Words
import StackLang.Proofs.TimedRun
import StackLang.Proofs.Listing.Roundtrip
import StackLang.Proofs.Machine.Budget
import StackLang.Proofs.Lint.Cycles
import StackLang.Proofs.Linking.Failure
import StackLang.Proofs.Machine.Fault
import StackLang.Proofs.Assembly.Jumps
import StackLang.Proofs.Readback
import StackLang.Proofs.Outputs
import StackLang.Proofs.Linking.Removal
import StackLang.Proofs.Listing.Notes
