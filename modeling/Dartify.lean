import Dartify.Assoc
import Dartify.Converter
import Dartify.Defect
import Dartify.Diagnostic
import Dartify.Idiom.Basic
import Dartify.Idiom.Catalog
import Dartify.Json.Basic
import Dartify.Json.Parser
import Dartify.LogFormat
import Dartify.Options
import Dartify.Output
import Dartify.Plan.Basic
import Dartify.Plan.CallIdiom
import Dartify.Plan.Decl
import Dartify.Plan.Expr
import Dartify.Plan.Import
import Dartify.Plan.Literal
import Dartify.Plan.Stmt
import Dartify.Plan.TypeExpr
import Dartify.Plan.TypeName
import Dartify.Run
import Dartify.Symbol.Basic
import Dartify.Symbol.Bindings
import Dartify.Symbol.ModulePath
import Dartify.Symbol.Resolver
import Dartify.Syntax.Build
import Dartify.Syntax.Operator
import Dartify.Syntax.Payload
import Dartify.Syntax.Payload.Decode
import Dartify.Syntax.Payload.Encode
import Dartify.Syntax.Tree
import Dartify.Text.Blank
import Dartify.Text.Lines
import Dartify.Text.Quoted
import Dartify.Text.Substitute
import Dartify.Proofs.Chain
import Dartify.Proofs.Transcript
import Dartify.Proofs.Demand
import Dartify.Proofs.Fault
import Dartify.Proofs.Grounding
import Dartify.Proofs.Walk
import Dartify.Proofs.Soundness
import Dartify.Proofs.Appending
import Dartify.Proofs.Rejection
import Dartify.Proofs.Success
import Dartify.Proofs.Agreement
import Dartify.Proofs.Reexport
import Dartify.Proofs.Candidates
import Dartify.Proofs.ChainOrder
import Dartify.Proofs.Balance
import Dartify.Proofs.ProperTree
import Dartify.Proofs.Visits
import Dartify.Proofs.Spread
import Dartify.Proofs.Offers
import Dartify.Proofs.Ancestry
import Dartify.Proofs.Linking
import Dartify.Proofs.JsonText
import Dartify.Proofs.Codec
import Dartify.Proofs.Termination
import Dartify.Proofs.Renaming
import Dartify.Proofs.PlanRenaming
import Dartify.Proofs.Renumbering
import Dartify.Proofs.Prefilter
import Dartify.Proofs.Refusal
import Dartify.Proofs.Preorder
import Dartify.Proofs.ExtraImports
import Dartify.Proofs.BareWords
import Dartify.Proofs.Exposure
import Dartify.Proofs.Postfix
import Dartify.Proofs.AliasWalk
import Dartify.Proofs.ModulePaths
import Dartify.Proofs.Arguments
import Dartify.Proofs.Escaping
import Dartify.Proofs.Quoting
import Dartify.Proofs.Templates
import Dartify.Proofs.TypePaths
import Dartify.Proofs.Positions
import Dartify.Proofs.Locations
import Dartify.Proofs.Spans
import Dartify.Proofs.Members
import Dartify.Proofs.ConstContext
import Dartify.Proofs.Filling
import Dartify.Proofs.Handles
import Dartify.Proofs.Callbacks
