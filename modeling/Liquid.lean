import Liquid.Main
import Liquid.Proofs.Arguments
import Liquid.Proofs.Chronology
import Liquid.Proofs.ClosingTags
import Liquid.Proofs.Concatenation
import Liquid.Proofs.DecimalTexts
import Liquid.Proofs.Disjunctions
import Liquid.Proofs.EntryOrder
import Liquid.Proofs.ExactOrder
import Liquid.Proofs.Flow
import Liquid.Proofs.Frame
import Liquid.Proofs.Lines
import Liquid.Proofs.Literals
import Liquid.Proofs.Mentions
import Liquid.Proofs.Normalization
import Liquid.Proofs.Numbers
import Liquid.Proofs.Paths
import Liquid.Proofs.Printing
import Liquid.Proofs.Registries
import Liquid.Proofs.Representation
import Liquid.Proofs.Strictness
