import Questionnaire.Address
import Questionnaire.Main
import Questionnaire.Postcode
import Questionnaire.Proofs.Expression.Parsing
import Questionnaire.Proofs.Model.Run
import Questionnaire.Proofs.Page.Revealed
import Questionnaire.Rule.Keys
import Questionnaire.View.Writing
import Questionnaire.Proofs.Calendar.Typed
import Questionnaire.Proofs.Component.Filling
import Questionnaire.Proofs.Component.Inputs
import Questionnaire.Proofs.Component.PartedDate
import Questionnaire.Proofs.Component.Refilling
import Questionnaire.Proofs.Page.Resubmission
import Questionnaire.Proofs.Condition.Circles
import Questionnaire.Proofs.Condition.Evaluation
import Questionnaire.Proofs.Expression.RoundTrip
import Questionnaire.Proofs.Rule.Revalidation
import Questionnaire.Proofs.Rule.Conforming
import Questionnaire.Proofs.Rule.Locality
import Questionnaire.Proofs.Definition.Members
import Questionnaire.Proofs.Definition.Structured
import Questionnaire.Proofs.Model.Compiling
import Questionnaire.Proofs.Definition.Writing
import Questionnaire.Proofs.Model.Rebuilding
import Questionnaire.Proofs.Page.Hidden
import Questionnaire.Proofs.Page.Optional
import Questionnaire.Proofs.Page.Required
import Questionnaire.Proofs.Page.Submitting
import Questionnaire.Proofs.Model.Overwriting
import Questionnaire.Proofs.Model.Interleaving
import Questionnaire.Proofs.Model.PageByPage
import Questionnaire.Proofs.Model.Marking
import Questionnaire.Proofs.Condition.PseudoVariables
import Questionnaire.Proofs.Page.Routing
import Questionnaire.Proofs.Component.SharedNames
import Questionnaire.Proofs.Page.Deciding
import Questionnaire.Proofs.Page.EnteredDate
import Questionnaire.Proofs.Condition.Reordering
import Questionnaire.Proofs.Page.Drifting
import Questionnaire.Proofs.Page.Anchors
import Questionnaire.Proofs.CommandLine.Validating
import Questionnaire.Proofs.Component.Regaining
import Questionnaire.Proofs.Component.Ticking
import Questionnaire.Proofs.Rule.Allowed
import Questionnaire.Proofs.Page.Integers
import Questionnaire.Proofs.Model.Offered
import Questionnaire.Proofs.Component.Covering
import Questionnaire.Proofs.Condition.Explaining
import Questionnaire.Proofs.Calendar.Words
import Questionnaire.Proofs.Component.Postcodes
import Questionnaire.Proofs.Expression.Declaring
import Questionnaire.Proofs.Expression.Positions
import Questionnaire.Proofs.Rule.Relaxing
import Questionnaire.Proofs.Model.Rows
import Questionnaire.Proofs.Definition.Elements
import Questionnaire.Proofs.Page.Deselecting
import Questionnaire.Proofs.Page.Contained
import Questionnaire.Proofs.Rule.Insertion
import Questionnaire.Proofs.Rule.Leading
