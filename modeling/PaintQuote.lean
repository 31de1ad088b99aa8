import PaintQuote.Formula.Functions.Criterion
import PaintQuote.Main
import PaintQuote.Proofs.Cache.Transparency
import PaintQuote.Proofs.Engine.History
import PaintQuote.Proofs.Order.Components
import PaintQuote.Sheet.Interchange
import PaintQuote.Proofs.Decimal.Nearest
import PaintQuote.Proofs.Estimate.Tiers
import PaintQuote.Proofs.Estimate.Quotes
import PaintQuote.Proofs.Estimate.RateSheet
import PaintQuote.Proofs.Decimal.ReadBack
import PaintQuote.Proofs.Formula.Characters
import PaintQuote.Proofs.Formula.References
import PaintQuote.Proofs.Formula.Scan
import PaintQuote.Proofs.Formula.Written
import PaintQuote.Proofs.Formula.Parse
import PaintQuote.Proofs.Formula.RoundTrip
import PaintQuote.Proofs.Engine.Representation
import PaintQuote.Proofs.Formula.Acceptance
import PaintQuote.Proofs.Values.Library
import PaintQuote.Proofs.Cache.Akin
import PaintQuote.Proofs.Formula.Calls
import PaintQuote.Proofs.Estimate.Formulas
import PaintQuote.Proofs.Estimate.Gallons
import PaintQuote.Proofs.Estimate.Inquiries
import PaintQuote.Proofs.Estimate.Perimeter
import PaintQuote.Proofs.Estimate.Replies
import PaintQuote.Engine.SharedCache
import PaintQuote.Proofs.Cache.Recency
import PaintQuote.Proofs.Estimate.Cells
import PaintQuote.Proofs.Estimate.Meaning
import PaintQuote.Proofs.Decimal.Units
import PaintQuote.Proofs.Estimate.NormalForms
import PaintQuote.Proofs.Estimate.RoomSheet
import PaintQuote.Proofs.Estimate.Measures
import PaintQuote.Proofs.Estimate.Prices
import PaintQuote.Proofs.Estimate.ProjectSheet
import PaintQuote.Proofs.Estimate.Amounts
import PaintQuote.Proofs.Estimate.Totals
import PaintQuote.Proofs.Estimate.Cents
import PaintQuote.Proofs.Estimate.Names
import PaintQuote.Proofs.Engine.Recomputation
import PaintQuote.Proofs.Values.Order
import PaintQuote.Proofs.Values.Wildcards
import PaintQuote.Proofs.Sheet.Keys
import PaintQuote.Proofs.Sheet.Targets
import PaintQuote.Proofs.Formula.DefinedNames
import PaintQuote.Proofs.Values.Positions
import PaintQuote.Proofs.Cache.Sessions
import PaintQuote.Proofs.Engine.Reports
import PaintQuote.Proofs.Values.Singles
import PaintQuote.Proofs.Engine.Blanks
import PaintQuote.Proofs.Values.OtherKinds
import PaintQuote.Proofs.Values.Transposed
import PaintQuote.Proofs.Decimal.Multiples
import PaintQuote.Proofs.Decimal.Tens
import PaintQuote.Proofs.Decimal.Results
import PaintQuote.Proofs.Values.Places
import PaintQuote.Proofs.Values.Modulus
import PaintQuote.Proofs.Values.Propagation
import PaintQuote.Proofs.Values.Snapped
import PaintQuote.Proofs.Evaluation.Unreached
import PaintQuote.Proofs.Evaluation.Reasons
import PaintQuote.Proofs.Evaluation.Shapes
import PaintQuote.Proofs.Cache.Bytes
import PaintQuote.Proofs.Estimate.Accounts
import PaintQuote.Proofs.Values.Criteria
import PaintQuote.Proofs.Formula.Corners
import PaintQuote.Proofs.Decimal.Reading
import PaintQuote.Proofs.Values.Formats
import PaintQuote.Proofs.Formula.Numerals
import PaintQuote.Proofs.Sheet.Enumeration
import PaintQuote.Proofs.Sheet.Notation
import PaintQuote.Proofs.Sheet.Loading
import PaintQuote.Proofs.Graph.Changes
import PaintQuote.Proofs.Formula.Positions
