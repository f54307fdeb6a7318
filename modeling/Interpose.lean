import Interpose.Code.Listing
import Interpose.Machine
import Interpose.Trace
import Interpose.Proofs.CacheOrder
import Interpose.Proofs.Transparency
import Interpose.Proofs.Consultation
import Interpose.Proofs.Scope
import Interpose.Proofs.Succession
import Interpose.Proofs.Failures
import Interpose.Proofs.Resolution
import Interpose.Proofs.Depth
import Interpose.Proofs.Entries
import Interpose.Proofs.Division
import Interpose.Proofs.Layout
import Interpose.Proofs.Operands
import Interpose.Proofs.Safety
import Interpose.Proofs.Following
import Interpose.Proofs.Cycles
import Interpose.Proofs.Limits
import Interpose.Proofs.Separation
import Interpose.Proofs.Variables
import Interpose.Proofs.Instructions
import Interpose.Proofs.Entry
import Interpose.Proofs.Migration
import Interpose.Proofs.Namespaces
import Interpose.Proofs.Aborts
import Interpose.Proofs.Exactness
import Interpose.Proofs.Assembly
import Interpose.Proofs.Calls
import Interpose.Proofs.Cells
import Interpose.Proofs.Materialization
import Interpose.Proofs.Closures
import Interpose.Proofs.Comparisons
import Interpose.Proofs.Maximum
import Interpose.Proofs.Repetition
import Interpose.Proofs.Shielding
import Interpose.Proofs.Lines
import Interpose.Proofs.SlotMap
