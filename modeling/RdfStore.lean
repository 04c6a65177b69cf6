import RdfStore.Main
import RdfStore.Proofs.Abbreviation
import RdfStore.Proofs.Collections
import RdfStore.Proofs.Eval.Exclusion
import RdfStore.Proofs.Eval.GreedyOrder
import RdfStore.Proofs.Eval.IntegerArithmetic
import RdfStore.Proofs.Eval.MatchedGraph
import RdfStore.Proofs.Eval.NewNodes
import RdfStore.Proofs.Eval.OwnTriples
import RdfStore.Proofs.Eval.Reordering
import RdfStore.Proofs.Eval.RowWidth
import RdfStore.Proofs.Eval.ScanChain
import RdfStore.Proofs.Eval.SeedAgreement
import RdfStore.Proofs.Eval.Shaping
import RdfStore.Proofs.Eval.Sorting
import RdfStore.Proofs.Query.DataSpelling
import RdfStore.Proofs.Query.OperatorText
import RdfStore.Proofs.Query.SameObjects
import RdfStore.Proofs.Results.Lossless
import RdfStore.Proofs.Results.NulFree
import RdfStore.Proofs.Results.TextTable
import RdfStore.Proofs.Store.Separation
import RdfStore.Proofs.Syntax.StringContents
import RdfStore.Proofs.Turtle.Lines
import RdfStore.Proofs.Turtle.Prefixes
import RdfStore.Proofs.Turtle.Refusals
import RdfStore.Proofs.Turtle.RoundTrip
import RdfStore.Proofs.Value.SortAgreement
