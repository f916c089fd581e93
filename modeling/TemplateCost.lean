import TemplateCost.Main
import TemplateCost.CommandLine.Workspace
import TemplateCost.Proofs.Cost.Isolation
import TemplateCost.Proofs.Cost.Tally
import TemplateCost.Proofs.Substitution.Reference
import TemplateCost.Proofs.Loading.Region
import TemplateCost.Proofs.Cost.Rates
import TemplateCost.Proofs.Loading.Overrides
import TemplateCost.Proofs.Template.Failure
import TemplateCost.Proofs.Loading.Presence
import TemplateCost.Proofs.Loading.Multiplicity
import TemplateCost.Proofs.Double.Parts
import TemplateCost.Proofs.Double.Rounding
import TemplateCost.Proofs.Double.Reciprocal
import TemplateCost.Proofs.Cost.Usable
import TemplateCost.Proofs.Cost.Writing
import TemplateCost.Proofs.Cost.Conversion
import TemplateCost.Proofs.Cost.MixedCurrencies
import TemplateCost.Proofs.Double.Nonneg
import TemplateCost.Proofs.Double.Whole
import TemplateCost.Proofs.Cost.Amounts
import TemplateCost.Proofs.Template.Open
import TemplateCost.Proofs.Loading.Location
import TemplateCost.Proofs.Cost.Skipped
import TemplateCost.Proofs.Path
import TemplateCost.Proofs.Loading.Listing
import TemplateCost.Proofs.Loading.Errors
import TemplateCost.Proofs.Variable
import TemplateCost.Proofs.Loading.Extraction
import TemplateCost.Proofs.Loading.Gates
import TemplateCost.Proofs.Text.Reader
import TemplateCost.Proofs.Decimal.Layout
import TemplateCost.Proofs.Double.Exact
import TemplateCost.Proofs.Decimal.Reading
import TemplateCost.Proofs.Config
import TemplateCost.Proofs.CommandLine.Traces
import TemplateCost.Proofs.CommandLine.Session
import TemplateCost.Proofs.CommandLine.Failure
import TemplateCost.Proofs.Json.Numbers
import TemplateCost.Proofs.Json.Short
import TemplateCost.Proofs.Json.Scalars
import TemplateCost.Proofs.Json.Documents
import TemplateCost.Proofs.Value.Json
import TemplateCost.Proofs.Report.Json
import TemplateCost.Proofs.Loading.Keys
import TemplateCost.Proofs.Template.Parentheses
import TemplateCost.Proofs.Template.Attributes
import TemplateCost.Proofs.Loading.Deletion
import TemplateCost.Proofs.Loading.Providers
import TemplateCost.Proofs.Substitution.Tokens
import TemplateCost.Proofs.Template.Distinct
import TemplateCost.Proofs.Substitution.Extent
import TemplateCost.Proofs.Loading.Queries
import TemplateCost.Proofs.Cost.Tiers
import TemplateCost.Proofs.Pricing.Book
import TemplateCost.Proofs.Value.Number
import TemplateCost.Proofs.Cost.Months
