import PhpLint.Engine
import PhpLint.Config.Discovery
import PhpLint.Proofs.Constant.Agreement
import PhpLint.Proofs.Constant.Filling
import PhpLint.Proofs.Constant.Unfolding
import PhpLint.Proofs.Constant.LastWriter
import PhpLint.Proofs.Report.UnitOrder
import PhpLint.Proofs.Tree.Equivalence
import PhpLint.Proofs.Report.Isolation
import PhpLint.Proofs.Constant.Symbol
import PhpLint.Proofs.Constant.Depth
import PhpLint.Proofs.Value.Commutation
import PhpLint.Proofs.Constant.Operands
import PhpLint.Proofs.Walk.Position
import PhpLint.Proofs.Walk.Scope
import PhpLint.Proofs.Constant.Erasure
import PhpLint.Proofs.Rule.Erasure
import PhpLint.Proofs.TreeJson.Located
import PhpLint.Proofs.TreeJson.Reading
import PhpLint.Proofs.TreeJson.RoundTrip
import PhpLint.Proofs.Literal.Token
import PhpLint.Proofs.Literal.Spelling
import PhpLint.Proofs.Config.Precedence
import PhpLint.Proofs.Config.SeverityOrder
import PhpLint.Proofs.Literal.Closure
import PhpLint.Proofs.Value.Order
import PhpLint.Proofs.Rule.Contradiction
import PhpLint.Proofs.Config.RuleSelection
import PhpLint.Proofs.Constant.Freezing
import PhpLint.Proofs.Literal.Numeral
import PhpLint.Proofs.Constant.Integral
import PhpLint.Proofs.Constant.Sharing
import PhpLint.Proofs.Rule.Duplicate
import PhpLint.Proofs.Tree.Name
import PhpLint.Proofs.Disk.Ancestors
import PhpLint.Proofs.Config.Nearest
import PhpLint.Proofs.Constant.Growth
import PhpLint.Proofs.Constant.Visiting
