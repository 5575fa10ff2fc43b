import MemoryLimit.Attach
import MemoryLimit.Main
import MemoryLimit.Proofs.Binary64.Rounding
import MemoryLimit.Proofs.Bisection.Halving
import MemoryLimit.Proofs.Bisection.Midpoint
import MemoryLimit.Proofs.Bisection.Precision
import MemoryLimit.Proofs.Bisection.Run
import MemoryLimit.Proofs.Decimal.Arithmetic
import MemoryLimit.Proofs.Decimal.Rounding
import MemoryLimit.Proofs.Decimal.Text
import MemoryLimit.Proofs.Decimal.Value
import MemoryLimit.Proofs.Group.Creation
import MemoryLimit.Proofs.Group.Delegation
import MemoryLimit.Proofs.Group.LifeCycle
import MemoryLimit.Proofs.Group.Steps
import MemoryLimit.Proofs.Host.Files
import MemoryLimit.Proofs.LimitSearch.Accuracy
import MemoryLimit.Proofs.LimitSearch.Boundary
import MemoryLimit.Proofs.Numeral.Integer
import MemoryLimit.Proofs.Path
import MemoryLimit.Proofs.Text.Lines
import MemoryLimit.Proofs.Trial.Cleanup
import MemoryLimit.Proofs.Trial.Record
import MemoryLimit.Proofs.Trial.Steps
import MemoryLimit.Proofs.Usage.File
import MemoryLimit.Proofs.Usage.Line
import MemoryLimit.Proofs.Usage.Order
import MemoryLimit.Proofs.Usage.Text
import MemoryLimit.Proofs.Usage.Merge
import MemoryLimit.Proofs.Usage.Loading
import MemoryLimit.Proofs.Action
import MemoryLimit.Proofs.LimitSearch.Runs
import MemoryLimit.Proofs.LimitSearch.InPlace
import MemoryLimit.Proofs.LimitSearch.Trials
import MemoryLimit.Proofs.Trial.Child
import MemoryLimit.Proofs.Program.Call
import MemoryLimit.Proofs.Attach.Run
import MemoryLimit.Proofs.Attach.Words
import MemoryLimit.Proofs.Text.Utf8
import MemoryLimit.Proofs.Trial.Course
import MemoryLimit.Proofs.Trial.Status
import MemoryLimit.Proofs.Bisection.Tolerance
import MemoryLimit.Proofs.Bisection.Convergence
import MemoryLimit.Proofs.Host.Atomic
import MemoryLimit.Proofs.Usage.Sorted
import MemoryLimit.Proofs.Usage.Atomic
import MemoryLimit.Proofs.Usage.Normal
import MemoryLimit.Proofs.Decimal.Moderate
import MemoryLimit.Proofs.Binary64.Text
import MemoryLimit.Proofs.Host.Reading
import MemoryLimit.Proofs.Trial.Collection
import MemoryLimit.Proofs.Size.Reading
import MemoryLimit.Proofs.Host.Making
import MemoryLimit.Proofs.Group.Refusal
import MemoryLimit.Proofs.Trial.ProcessorTime
import MemoryLimit.Proofs.Trial.Retrying
import MemoryLimit.Proofs.Settings.Precedence
