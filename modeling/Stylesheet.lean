import Stylesheet.Main
import Stylesheet.Proofs.ArgumentBinding
import Stylesheet.Proofs.BuiltinArguments
import Stylesheet.Proofs.CommentStripping
import Stylesheet.Proofs.Comparability
import Stylesheet.Proofs.ContentArguments
import Stylesheet.Proofs.CutOff
import Stylesheet.Proofs.Equality
import Stylesheet.Proofs.Flattening
import Stylesheet.Proofs.FunctionOutput
import Stylesheet.Proofs.GlobalVariables
import Stylesheet.Proofs.HiddenNodes
import Stylesheet.Proofs.ImportFailures
import Stylesheet.Proofs.IndentedBraces
import Stylesheet.Proofs.InterpolatedValues
import Stylesheet.Proofs.LexicalContent
import Stylesheet.Proofs.ListItems
import Stylesheet.Proofs.LoopRounds
import Stylesheet.Proofs.LowestTerms
import Stylesheet.Proofs.MediaQueries
import Stylesheet.Proofs.NumberTexts
import Stylesheet.Proofs.ParentReferences
import Stylesheet.Proofs.ParserRounds
import Stylesheet.Proofs.Placeholders
import Stylesheet.Proofs.PrecedenceReading
import Stylesheet.Proofs.QuotedInterpolations
import Stylesheet.Proofs.QuotedStrings
import Stylesheet.Proofs.RawText
import Stylesheet.Proofs.ReadingBack
import Stylesheet.Proofs.Respelling
import Stylesheet.Proofs.SelectorNesting
import Stylesheet.Proofs.SourceMapAddress
import Stylesheet.Proofs.SourceMapDecoding
import Stylesheet.Proofs.StringPlaces
import Stylesheet.Proofs.Writability
