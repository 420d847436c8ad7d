import ExprLang.Main
import ExprLang.Proofs.Assoc.History
import ExprLang.Proofs.Collection.Quantifiers
import ExprLang.Proofs.Collection.Repetition
import ExprLang.Proofs.Collection.Snapshot
import ExprLang.Proofs.Collection.Sorting
import ExprLang.Proofs.Collection.Sums
import ExprLang.Proofs.Conversion.OwnType
import ExprLang.Proofs.Conversion.ShownText
import ExprLang.Proofs.Conversion.Width
import ExprLang.Proofs.Equality.SetOrder
import ExprLang.Proofs.Evaluation.HostCalls
import ExprLang.Proofs.Evaluation.ValueType
import ExprLang.Proofs.Grammar.Bounds
import ExprLang.Proofs.Grammar.Language
import ExprLang.Proofs.Operator.Division
import ExprLang.Proofs.Operator.Faults
import ExprLang.Proofs.Operator.Order
import ExprLang.Proofs.Processor.CompileCache
import ExprLang.Proofs.Resolution.Standard
import ExprLang.Proofs.Scope.Balance
import ExprLang.Proofs.Scope.Caller
import ExprLang.Proofs.Scope.Lambda
import ExprLang.Proofs.Scope.Layers
import ExprLang.Proofs.Source.IntegerLiterals
import ExprLang.Proofs.Source.RoundTrip
import ExprLang.Proofs.Source.WellFormed
import ExprLang.Proofs.Storage.Typing
import ExprLang.Proofs.Store.BeanText
import ExprLang.Proofs.Store.Frozen
import ExprLang.Proofs.Store.LockedMap
import ExprLang.Proofs.Store.NullBase
import ExprLang.Proofs.Store.Place
import ExprLang.Proofs.Store.ReadOnly
import ExprLang.Proofs.Store.Standard
import ExprLang.Proofs.Template.Meaning
import ExprLang.Proofs.Template.Wrapping
import ExprLang.Proofs.Text.Positions
import ExprLang.Proofs.Token.Tokenization
import ExprLang.Resolver.Probe
