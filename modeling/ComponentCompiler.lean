import ComponentCompiler.Component.Summary
import ComponentCompiler.Main
import ComponentCompiler.Plugin.Edit
import ComponentCompiler.Proofs.Batch.Artifacts
import ComponentCompiler.Proofs.Batch.Isolation
import ComponentCompiler.Proofs.Batch.Rebuild
import ComponentCompiler.Proofs.Component.Judged
import ComponentCompiler.Proofs.Component.Rearranged
import ComponentCompiler.Proofs.Embedding.FixedPoint
import ComponentCompiler.Proofs.Format.Lines
import ComponentCompiler.Proofs.Format.NormalForm
import ComponentCompiler.Proofs.Markup.BlankTexts
import ComponentCompiler.Proofs.Markup.EmbeddedCode
import ComponentCompiler.Proofs.Markup.HiddenEdits
import ComponentCompiler.Proofs.Markup.ScopedClass
import ComponentCompiler.Proofs.Naming.Hyphens
import ComponentCompiler.Proofs.Page.Activation
import ComponentCompiler.Proofs.Page.Annotations
import ComponentCompiler.Proofs.Page.Declarations
import ComponentCompiler.Proofs.Page.Delimiters
import ComponentCompiler.Proofs.Page.ImportedNames
import ComponentCompiler.Proofs.Page.LocalNames
import ComponentCompiler.Proofs.Page.Methods
import ComponentCompiler.Proofs.Page.Schedule
import ComponentCompiler.Proofs.Page.StaticPage
import ComponentCompiler.Proofs.Page.StoredForm
import ComponentCompiler.Proofs.Page.Tidying
import ComponentCompiler.Proofs.Script.Chain
import ComponentCompiler.Proofs.Script.KeyRenaming
import ComponentCompiler.Proofs.Script.Localize
import ComponentCompiler.Proofs.Script.Rewriting
import ComponentCompiler.Proofs.Script.Scope
import ComponentCompiler.Proofs.Script.StringValue
import ComponentCompiler.Proofs.Script.TandemTokens
import ComponentCompiler.Proofs.Style.RuleOrComment
import ComponentCompiler.Proofs.Style.Rules
