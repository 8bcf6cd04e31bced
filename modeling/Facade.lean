import Facade.Main
import Facade.Proofs.Checked.Declarations
import Facade.Proofs.CommandLine.Run
import Facade.Proofs.Declaration.AngleBrackets
import Facade.Proofs.Declaration.Ellipses
import Facade.Proofs.Declaration.Lines
import Facade.Proofs.Declaration.Lookahead
import Facade.Proofs.Declaration.Places
import Facade.Proofs.Declaration.Printed.Strings
import Facade.Proofs.Declaration.Shape
import Facade.Proofs.Definition.Comments
import Facade.Proofs.Definition.Gathering
import Facade.Proofs.Definition.ToldApart
import Facade.Proofs.Token.LineEnds
import Facade.Proofs.Token.Positions
import Facade.Proofs.Token.Tiling
import Facade.Proofs.Translation.Blocks
import Facade.Proofs.Translation.Conservation
import Facade.Proofs.Translation.Constructors
import Facade.Proofs.Translation.Dynamic
import Facade.Proofs.Translation.Entries
import Facade.Proofs.Translation.Expansion
import Facade.Proofs.Translation.Frame
import Facade.Proofs.Translation.Headers
import Facade.Proofs.Translation.Imports
import Facade.Proofs.Translation.Independence
import Facade.Proofs.Translation.Losses
import Facade.Proofs.Translation.Names
import Facade.Proofs.Translation.OutputPath
import Facade.Proofs.Translation.Placeholders
import Facade.Proofs.Translation.Promotion
import Facade.Proofs.Translation.Repeated
import Facade.Proofs.Translation.Reuse
import Facade.Proofs.Translation.Varargs
import Facade.Translation.Session
