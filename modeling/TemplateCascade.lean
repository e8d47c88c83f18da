import TemplateCascade.Text.Blank
import TemplateCascade.Text.Place
import TemplateCascade.Text.Identifier
import TemplateCascade.Text.Quoted
import TemplateCascade.Text.Escaping
import TemplateCascade.Number.Decimal
import TemplateCascade.Number.Reading
import TemplateCascade.Value.Comparison
import TemplateCascade.Artifact.Key
import TemplateCascade.Fingerprint
import TemplateCascade.Markup.Lexer
import TemplateCascade.Markup.Segment
import TemplateCascade.Markup.Parser.Inline
import TemplateCascade.Markup.Parser.Block
import TemplateCascade.Code.Printer
import TemplateCascade.Expression.Condition
import TemplateCascade.Compile.Pending
import TemplateCascade.Compile.Template
import TemplateCascade.Render.DateFormat
import TemplateCascade.Render.Evaluation
import TemplateCascade.Inheritance.Tree
import TemplateCascade.Inheritance.Resolution
import TemplateCascade.Artifact.Basic
import TemplateCascade.Artifact.Dependencies
import TemplateCascade.Artifact.Cache
import TemplateCascade.Markup.ParseMemo
import TemplateCascade.Cascade.Report
import TemplateCascade.Store.Memory
import TemplateCascade.Store.Refusing
import TemplateCascade.Config.Settings
import TemplateCascade.Inheritance.Scheme
import TemplateCascade.Cascade.Plan
import TemplateCascade.Cascade.Build
import TemplateCascade.Engine.Basic
import TemplateCascade.Engine.Edit
import TemplateCascade.Proofs.Compile.Noninterference
import TemplateCascade.Proofs.Engine.Reopening
import TemplateCascade.Proofs.Engine.Deriving
import TemplateCascade.Proofs.Code.Concatenation
import TemplateCascade.Proofs.Compile.IncludeGraph
import TemplateCascade.Proofs.Compile.Lawful
import TemplateCascade.Proofs.Compile.Expansion
import TemplateCascade.Proofs.Compile.Splicing
import TemplateCascade.Proofs.Compile.Injection
import TemplateCascade.Proofs.Compile.Interpretation
import TemplateCascade.Proofs.Compile.Preservation
import TemplateCascade.Proofs.Compile.Validation
import TemplateCascade.Proofs.Engine.Exactness
import TemplateCascade.Proofs.Engine.Accounting
import TemplateCascade.Proofs.Engine.Acceptance
import TemplateCascade.Proofs.Inheritance.Lineage
import TemplateCascade.Proofs.Engine.Lockstep
import TemplateCascade.Proofs.Engine.Generations
import TemplateCascade.Proofs.Compile.Cycles
import TemplateCascade.Proofs.Engine.Shortcuts
import TemplateCascade.Proofs.Markup.Tiling
import TemplateCascade.Proofs.Markup.Derivability
import TemplateCascade.Proofs.Engine.Serving
import TemplateCascade.Proofs.Inheritance.Reloading
import TemplateCascade.Proofs.Engine.ReportOrder
import TemplateCascade.Proofs.Inheritance.Rearranging
import TemplateCascade.Proofs.Render.Deciding
import TemplateCascade.Proofs.Render.Folding
import TemplateCascade.Proofs.Markup.Exactness
import TemplateCascade.Proofs.Compile.Pointing
import TemplateCascade.Proofs.Markup.Printing
import TemplateCascade.Proofs.Compile.Verbatim
import TemplateCascade.Proofs.Text.Entities
import TemplateCascade.Proofs.Text.PercentEncoding
import TemplateCascade.Proofs.Text.ScriptLiterals
import TemplateCascade.Proofs.Text.Escaped
import TemplateCascade.Proofs.Render.Paging
import TemplateCascade.Proofs.Render.Linking
import TemplateCascade.Proofs.Compile.Splitting
import TemplateCascade.Proofs.Markup.Naming
import TemplateCascade.Proofs.Compile.Phrases
import TemplateCascade.Proofs.Compile.Inlining
import TemplateCascade.Proofs.Value.Coherence
import TemplateCascade.Proofs.Render.Constructing
import TemplateCascade.Proofs.Number.FixedPoint
import TemplateCascade.Proofs.Render.Grouping
import TemplateCascade.Proofs.Artifact.Recording
import TemplateCascade.Proofs.Markup.Indexing
