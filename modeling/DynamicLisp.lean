import DynamicLisp.Main
import DynamicLisp.Proofs.Evaluation.Ceiling
import DynamicLisp.Proofs.Evaluation.Flow
import DynamicLisp.Proofs.Evaluation.Origin
import DynamicLisp.Proofs.Evaluation.Targets
import DynamicLisp.Proofs.Evaluation.Termination
import DynamicLisp.Proofs.Evaluation.Threshold
import DynamicLisp.Proofs.Evaluation.Unread
import DynamicLisp.Proofs.Reader.RoundTrip
import DynamicLisp.Proofs.Repl.Lines
import DynamicLisp.Proofs.Repl.Waiting
import DynamicLisp.Proofs.Session.ProgramText
import DynamicLisp.Value.OfData
import DynamicLisp.Proofs.Reader.Comments
import DynamicLisp.Proofs.Evaluation.Trace
import DynamicLisp.Proofs.Session.Printing
import DynamicLisp.Proofs.Value.Identity
import DynamicLisp.Proofs.Evaluation.Closures
import DynamicLisp.Proofs.Evaluation.Handing
import DynamicLisp.Proofs.Session.Identity
import DynamicLisp.Proofs.CommandLine
import DynamicLisp.Proofs.Evaluation.Extension
import DynamicLisp.Proofs.Reader.Concatenation
import DynamicLisp.Proofs.Reader.Failures
import DynamicLisp.Proofs.Store.Lookup
import DynamicLisp.Proofs.Primitives.Arithmetic
import DynamicLisp.Proofs.Primitives.Comparison
import DynamicLisp.Proofs.Evaluation.Operators
import DynamicLisp.Proofs.Repl.Listing
import DynamicLisp.Proofs.Reader.Snippets
