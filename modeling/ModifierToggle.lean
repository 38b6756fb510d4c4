import ModifierToggle.Caller
import ModifierToggle.File.Tree
import ModifierToggle.Main
import ModifierToggle.Proofs.AddRemove
import ModifierToggle.Proofs.CodeLines
import ModifierToggle.Proofs.CommentReading
import ModifierToggle.Proofs.Occurrences
import ModifierToggle.Proofs.Toggle
import ModifierToggle.Proofs.TokenEdits
import ModifierToggle.Proofs.Pieces
import ModifierToggle.Proofs.LineFrame
import ModifierToggle.Proofs.SpanFrame
import ModifierToggle.Proofs.StandingWords
import ModifierToggle.Proofs.LineViews
import ModifierToggle.Proofs.TokenPlacement
import ModifierToggle.Proofs.SpreadWords
import ModifierToggle.Proofs.ModifierOrder
import ModifierToggle.Proofs.NormalizeInspection
import ModifierToggle.Proofs.ActionScriptLayout
import ModifierToggle.Proofs.CheckedReading
import ModifierToggle.Proofs.CheckedEditor
import ModifierToggle.Proofs.CursorCarried
import ModifierToggle.Proofs.MenuAgain
import ModifierToggle.Proofs.SettingsNames
import ModifierToggle.Proofs.VisibilityAgreement
import ModifierToggle.Proofs.InsertedText
import ModifierToggle.Proofs.LineExchange
import ModifierToggle.Proofs.InsertedVisibility
import ModifierToggle.Proofs.WhiteGaps
import ModifierToggle.Proofs.LexedWords
import ModifierToggle.Proofs.WordPermutation
import ModifierToggle.Proofs.FirstOccurrence
import ModifierToggle.Proofs.KeptDeclaration
import ModifierToggle.Proofs.AddedToken
import ModifierToggle.Proofs.SettledPlacement
import ModifierToggle.Proofs.LineIndex
import ModifierToggle.Proofs.MenuOrder
import ModifierToggle.Proofs.HeaderSearch
import ModifierToggle.Proofs.ClusterReach
import ModifierToggle.Proofs.ClusterCuts
import ModifierToggle.Proofs.Columns
import ModifierToggle.Proofs.WrittenPlaces
import ModifierToggle.Proofs.LineBreaks
import ModifierToggle.Proofs.DiffSides
import ModifierToggle.Proofs.ShownDiff
import ModifierToggle.Proofs.SettingsProblems
import ModifierToggle.Proofs.LineSplices
