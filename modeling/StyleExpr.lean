import StyleExpr.CharStream
import StyleExpr.Expr.Walk
import StyleExpr.Main
import StyleExpr.Proofs.Expr.Displayed
import StyleExpr.Proofs.Expr.Flaws
import StyleExpr.Proofs.Expr.Nodes
import StyleExpr.Proofs.Expr.Sameness
import StyleExpr.Proofs.Expr.Traversal
import StyleExpr.Proofs.Grammar.Progress
import StyleExpr.Proofs.Grammar.Warnings
import StyleExpr.Proofs.Json.Lossless
import StyleExpr.Proofs.NodePlaces
import StyleExpr.Proofs.Respacing
import StyleExpr.Proofs.Session.Lines
import StyleExpr.Proofs.Session.TokensMode
import StyleExpr.Proofs.Shift
import StyleExpr.Proofs.Source.Onward
import StyleExpr.Proofs.Verdict
import StyleExpr.Proofs.Widths
import StyleExpr.Proofs.WrittenNumbers
import StyleExpr.Proofs.WrittenStrings
