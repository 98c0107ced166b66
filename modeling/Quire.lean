import Quire.Main
import Quire.Template.Placeholder
import Quire.Proofs.Discovery.Pass
import Quire.Proofs.Html.Annotated
import Quire.Proofs.Bundle.Page
import Quire.Proofs.Bundle.Scripts
import Quire.Proofs.Bundle.Shipping
import Quire.Proofs.Template.Inert
import Quire.Proofs.Html.SameTags
import Quire.Proofs.Html.Contents
import Quire.Proofs.Html.Ids
import Quire.Proofs.Index.AppendOnly
import Quire.Proofs.Discovery.Positions
import Quire.Proofs.Numbering.Labels
import Quire.Proofs.Html.References
import Quire.Proofs.Html.Warnings
import Quire.Proofs.Bundle.Contents
import Quire.Proofs.Discovery.Separate
import Quire.Proofs.Bundle.Failures
import Quire.Proofs.Document.RoundTrip
import Quire.Proofs.Template.Requests
import Quire.Proofs.Catalogue.Loading
import Quire.Proofs.Html.Nesting
import Quire.Proofs.Html.Wrappers
import Quire.Proofs.Numbering.Expansion
import Quire.Proofs.Bundle.Macros
import Quire.Proofs.Css.Size
import Quire.Proofs.Text.Identifier
import Quire.Proofs.Numbering.Numerals
import Quire.Proofs.Catalogue.Confined
