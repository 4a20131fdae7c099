import HtmlViews.CallStack
import HtmlViews.Condition.Eval
import HtmlViews.Condition.Parser
import HtmlViews.Condition.Report
import HtmlViews.Condition.Scanner
import HtmlViews.Condition.Syntax
import HtmlViews.Condition.Token
import HtmlViews.Config
import HtmlViews.Context
import HtmlViews.Dict
import HtmlViews.Directive.Argument
import HtmlViews.Directive.Component
import HtmlViews.Directive.Conditional
import HtmlViews.Directive.Csrf
import HtmlViews.Directive.Loop
import HtmlViews.Directive.Message
import HtmlViews.Directive.Switch
import HtmlViews.Directive.Url
import HtmlViews.Directive.Validation
import HtmlViews.Directive.Variable
import HtmlViews.Engine.Basic
import HtmlViews.Engine.Loading
import HtmlViews.Engine.View
import HtmlViews.Failure
import HtmlViews.Files
import HtmlViews.Files.Glob
import HtmlViews.Files.Pattern
import HtmlViews.Files.Tree
import HtmlViews.Fragment
import HtmlViews.Log
import HtmlViews.Numeric.Binary64
import HtmlViews.Numeric.Number
import HtmlViews.Numeric.Reading
import HtmlViews.Numeric.Shortest
import HtmlViews.Numeric.Spelling
import HtmlViews.Proofs.Argument.Quoted
import HtmlViews.Proofs.Argument.Rest
import HtmlViews.Proofs.CallStack
import HtmlViews.Proofs.CallStack.History
import HtmlViews.Proofs.Component.Calls
import HtmlViews.Proofs.Component.Expansion
import HtmlViews.Proofs.Component.Items
import HtmlViews.Proofs.Component.Parameters
import HtmlViews.Proofs.Component.Writing
import HtmlViews.Proofs.Condition.Acceptance
import HtmlViews.Proofs.Condition.Balance
import HtmlViews.Proofs.Condition.Comparison
import HtmlViews.Proofs.Condition.Grammar
import HtmlViews.Proofs.Condition.Grouping
import HtmlViews.Proofs.Condition.Reading
import HtmlViews.Proofs.Condition.Scanning
import HtmlViews.Proofs.Condition.Truth
import HtmlViews.Proofs.Conditional.Conjunction
import HtmlViews.Proofs.Conditional.Marks
import HtmlViews.Proofs.Conditional.Nesting
import HtmlViews.Proofs.Conditional.Places
import HtmlViews.Proofs.Conditional.Scan
import HtmlViews.Proofs.Conditional.Wrapping
import HtmlViews.Proofs.Config.Lines
import HtmlViews.Proofs.Config.Writing
import HtmlViews.Proofs.Crash.Basic
import HtmlViews.Proofs.Crash.Capture
import HtmlViews.Proofs.Crash.Component
import HtmlViews.Proofs.Crash.Condition
import HtmlViews.Proofs.Crash.Conditional
import HtmlViews.Proofs.Crash.Directive
import HtmlViews.Proofs.Crash.Engine
import HtmlViews.Proofs.Crash.Render
import HtmlViews.Proofs.Crash.Slice
import HtmlViews.Proofs.Crash.Switch
import HtmlViews.Proofs.Dict
import HtmlViews.Proofs.Directive.Deletion
import HtmlViews.Proofs.Directive.Malformed
import HtmlViews.Proofs.Directive.Written
import HtmlViews.Proofs.Engine.Layout
import HtmlViews.Proofs.Engine.Loading
import HtmlViews.Proofs.Engine.Reachable
import HtmlViews.Proofs.Engine.Reload
import HtmlViews.Proofs.Engine.Request
import HtmlViews.Proofs.Escape.Decoding
import HtmlViews.Proofs.Escape.Placement
import HtmlViews.Proofs.Loop.Fields
import HtmlViews.Proofs.Loop.Repetition
import HtmlViews.Proofs.Message.Block
import HtmlViews.Proofs.Numeric.Order
import HtmlViews.Proofs.Numeric.Rounding
import HtmlViews.Proofs.Render.Calls
import HtmlViews.Proofs.Render.Chain
import HtmlViews.Proofs.Render.Composition
import HtmlViews.Proofs.Render.Consumption
import HtmlViews.Proofs.Render.Delivery
import HtmlViews.Proofs.Render.Forwarding
import HtmlViews.Proofs.Render.Inline
import HtmlViews.Proofs.Render.Limit
import HtmlViews.Proofs.Render.Literal
import HtmlViews.Proofs.Render.Nesting
import HtmlViews.Proofs.Render.Observation
import HtmlViews.Proofs.Render.Run
import HtmlViews.Proofs.Render.Stages
import HtmlViews.Proofs.Session.History
import HtmlViews.Proofs.Session.Presence
import HtmlViews.Proofs.Session.Sharing
import HtmlViews.Proofs.Session.Taking
import HtmlViews.Proofs.Session.Token
import HtmlViews.Proofs.Switch.Block
import HtmlViews.Proofs.Text.Balance
import HtmlViews.Proofs.Text.Interleaved
import HtmlViews.Proofs.Text.Occurrence
import HtmlViews.Proofs.Text.Parts
import HtmlViews.Proofs.Text.Search
import HtmlViews.Proofs.Text.Word
import HtmlViews.Proofs.Validation.Field
import HtmlViews.Proofs.Value.Equality
import HtmlViews.Proofs.Value.Integer
import HtmlViews.Proofs.Value.Order
import HtmlViews.Proofs.Value.Sameness
import HtmlViews.Proofs.Variable.Name
import HtmlViews.Proofs.Variable.Placeholder
import HtmlViews.Proofs.Variable.Substitution
import HtmlViews.Render.Pass
import HtmlViews.Render.State
import HtmlViews.Session
import HtmlViews.Session.CsrfToken
import HtmlViews.Session.Store
import HtmlViews.Site
import HtmlViews.Template
import HtmlViews.Text.Basic
import HtmlViews.Text.Blank
import HtmlViews.Text.Escape
import HtmlViews.Text.Parenthesis
import HtmlViews.Text.Piece
import HtmlViews.Text.Quote
import HtmlViews.Text.Word
import HtmlViews.Text.WordTable
import HtmlViews.Value.Basic
import HtmlViews.Value.Compare
import HtmlViews.Value.Text
