import Stencil.Main
import Stencil.Proofs.Command.Rendering
import Stencil.Proofs.Grammar.Following
import Stencil.Proofs.Grammar.GrammarText
import Stencil.Proofs.Grammar.Preceding
import Stencil.Proofs.Outline.Distinct
import Stencil.Proofs.Parse.Speculation
import Stencil.Proofs.Parse.Unread
import Stencil.Proofs.Source.Encodings
import Stencil.Proofs.Source.Faults
import Stencil.Proofs.Table.Listing
import Stencil.Proofs.Table.Renumbering
import Stencil.Proofs.Table.Thorough
import Stencil.Proofs.Template.Applying
import Stencil.Proofs.Template.Language
import Stencil.Proofs.Template.Lines
import Stencil.Proofs.Template.Misled
import Stencil.Proofs.Template.Refusals
import Stencil.Proofs.Template.Rendering
import Stencil.Proofs.Template.Shapes
import Stencil.Proofs.Template.SinkCalls
import Stencil.Proofs.Template.TokenStream
import Stencil.Proofs.Template.TreePlaces
import Stencil.Proofs.Template.Ways
import Stencil.Proofs.UndoStack
