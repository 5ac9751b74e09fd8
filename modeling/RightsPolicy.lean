import RightsPolicy.Main
import RightsPolicy.Proofs.Lossless
import RightsPolicy.Proofs.Document.ReadBack
import RightsPolicy.Proofs.Document.Text
import RightsPolicy.Proofs.Validation.Order
import RightsPolicy.Proofs.Document.Normal
import RightsPolicy.Proofs.Policy.Editing
import RightsPolicy.Proofs.Validation.Addressing
import RightsPolicy.Proofs.Store.Resave
import RightsPolicy.Proofs.Store.Exchange
import RightsPolicy.Proofs.Policy.Authoring
import RightsPolicy.Proofs.Cli.Agreement
import RightsPolicy.Proofs.Cli.Listing
import RightsPolicy.Proofs.Store.SameButIds
import RightsPolicy.Proofs.Store.Validity
import RightsPolicy.Proofs.Document.Canonical
import RightsPolicy.Proofs.Validation.Removal
import RightsPolicy.Proofs.Validation.Updates
import RightsPolicy.Proofs.Policy.Commuting
import RightsPolicy.Proofs.Document.UnknownTerms
import RightsPolicy.Proofs.Validation.Paths
import RightsPolicy.Proofs.Document.Rearranged
import RightsPolicy.Proofs.Document.ScalarText
import RightsPolicy.Proofs.Document.Window
