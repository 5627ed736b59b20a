import ConfigWeave.Text.Basic
import ConfigWeave.Text.CaseMapping
import ConfigWeave.Text.Search
import ConfigWeave.Number.FloatText
import ConfigWeave.Number.Read
import ConfigWeave.Value.Mapping
import ConfigWeave.Value.Basic
import ConfigWeave.Value.Written
import ConfigWeave.Scalar
import ConfigWeave.Position
import ConfigWeave.FileSystem
import ConfigWeave.Expr.Evaluate
import ConfigWeave.Expr.Print
import ConfigWeave.Interpolation
import ConfigWeave.Yaml.Property
import ConfigWeave.Yaml.BlockScalar
import ConfigWeave.Yaml.Tokenizer
import ConfigWeave.Yaml.Event
import ConfigWeave.Yaml.Document
import ConfigWeave.Value.Override
import ConfigWeave.Value.Block
import ConfigWeave.FileCache
import ConfigWeave.WarningLog
import ConfigWeave.Settings
import ConfigWeave.IncludeRegistry
import ConfigWeave.Compose.Transform
import ConfigWeave.Compose.Template
import ConfigWeave.Compose.Variables
import ConfigWeave.Compose.Package
import ConfigWeave.Session
import ConfigWeave.Proofs.Termination
import ConfigWeave.Proofs.Resolution
import ConfigWeave.Proofs.Dependency
import ConfigWeave.Proofs.CleanTree
import ConfigWeave.Proofs.Override
import ConfigWeave.Proofs.Expr.Balance
import ConfigWeave.Proofs.Expr.Layout
import ConfigWeave.Proofs.Expr.Completion
import ConfigWeave.Proofs.Placeholder
import ConfigWeave.Proofs.Expr.RoundTrip
import ConfigWeave.Proofs.ParsedTree
import ConfigWeave.Proofs.PlainTree
import ConfigWeave.Proofs.IncludeChain
import ConfigWeave.Proofs.SharedCache
import ConfigWeave.Proofs.IncludeRegistry
import ConfigWeave.Proofs.IncludeDepth
import ConfigWeave.Proofs.Composer
import ConfigWeave.LoadContext
import ConfigWeave.Proofs.LoadContext
import ConfigWeave.Proofs.Settled.Override
import ConfigWeave.Proofs.Expr.Elementary
import ConfigWeave.Proofs.Settled.Load
import ConfigWeave.Proofs.FinishedContent
import ConfigWeave.Proofs.AliasedText
import ConfigWeave.Proofs.InertVariables
import ConfigWeave.Proofs.VariablePrecedence
import ConfigWeave.Proofs.NodeTree
import ConfigWeave.Proofs.BuiltinVariables
import ConfigWeave.Proofs.SubstitutedCondition
import ConfigWeave.Proofs.TopLevelKeys
import ConfigWeave.Proofs.Siblings
import ConfigWeave.Proofs.DeepMerge
import ConfigWeave.Proofs.MergeKeys
import ConfigWeave.Proofs.TemplateChain
import ConfigWeave.Proofs.TemplateSection
import ConfigWeave.Proofs.OverridePass
import ConfigWeave.Proofs.UnselectedBranch
import ConfigWeave.Proofs.SectionSubstitution
import ConfigWeave.Proofs.PlaceholderScan
import ConfigWeave.Value.Hash
import ConfigWeave.Proofs.KeyEquality
import ConfigWeave.Proofs.Expr.Warnings
import ConfigWeave.Proofs.Expr.Mention
import ConfigWeave.Proofs.Expr.FloorDivision
import ConfigWeave.Proofs.Expr.Sorting
import ConfigWeave.Proofs.IntegerText
import ConfigWeave.Proofs.Expr.DottedIndex
import ConfigWeave.Proofs.Position
import ConfigWeave.Proofs.WarningLog
