import TestScaffold.Main
import TestScaffold.Proofs.Encoding
import TestScaffold.Proofs.SyntaxTree
import TestScaffold.Proofs.Legibility
import TestScaffold.Proofs.CommentErasure
import TestScaffold.Proofs.CommentIndependence
import TestScaffold.Proofs.ExportCorrespondence
import TestScaffold.Proofs.GenerationOutcome
import TestScaffold.Proofs.JoinedText
import TestScaffold.Proofs.WriteEffect
import TestScaffold.Proofs.RawPaths
import TestScaffold.Proofs.RawWriteEffect
import TestScaffold.Proofs.PlainRequests
import TestScaffold.Proofs.SuiteLines
import TestScaffold.Proofs.SuiteBrackets
import TestScaffold.Proofs.JsonRoundTrip
import TestScaffold.Proofs.ModelRoundTrip
import TestScaffold.Proofs.BodyIndependence
import TestScaffold.Proofs.TestFileMarker
import TestScaffold.Proofs.TestFileName
import TestScaffold.Proofs.DetectionFrame
import TestScaffold.Proofs.PathSpelling
import TestScaffold.Proofs.GenerationSequence
import TestScaffold.Proofs.ConventionAgreement
import TestScaffold.Proofs.VerboseFlag
import TestScaffold.Proofs.ErrorSearch
import TestScaffold.Proofs.CommentAttribution
import TestScaffold.Proofs.ArgumentLists
import TestScaffold.Proofs.StringLiterals
import TestScaffold.Proofs.SourcePositions
import TestScaffold.Proofs.SourceOrder
import TestScaffold.Proofs.QuotedFunction
import TestScaffold.Proofs.ParameterShapes
import TestScaffold.Proofs.TypeNesting
import TestScaffold.Proofs.ModelCheck
import TestScaffold.Proofs.TestFileSibling
import TestScaffold.Proofs.DefaultLiterals
import TestScaffold.Proofs.TypedEndings
import TestScaffold.Proofs.UpwardSearch
import TestScaffold.Proofs.DetectionCoherence
import TestScaffold.Proofs.LossyDecoding
import TestScaffold.Proofs.CharacterColumns
import TestScaffold.Proofs.ExtractionOutcome
import TestScaffold.Proofs.EscapedTitles
import TestScaffold.Proofs.ErrorQuotation
