import Covenant.Number.Arithmetic
import Covenant.Number.Word
import Covenant.Number.Text
import Covenant.Text.CodeUnit
import Covenant.Text.Quoted
import Covenant.Text.Identifier
import Covenant.Json.Reader
import Covenant.Json.Writer
import Covenant.Syntax.Tree
import Covenant.Syntax.Printer
import Covenant.Syntax.Node
import Covenant.Syntax.Replacer
import Covenant.Syntax.Names
import Covenant.Interchange.Encode
import Covenant.Interchange.Decode
import Covenant.Contract.OldValue
import Covenant.Contract.Checker
import Covenant.Contract.Options
import Covenant.Contract.Transform
import Covenant.Machine.Session
import Covenant.Machine.Inspect
import Covenant.CommandLine.Perform
import Covenant.Main
import Covenant.Proofs.Action
import Covenant.Proofs.Constant
import Covenant.Proofs.Step
import Covenant.Proofs.Judgement
import Covenant.Proofs.Walk
import Covenant.Proofs.Exchange
import Covenant.Proofs.Replacement
import Covenant.Proofs.Condition
import Covenant.Proofs.Capture
import Covenant.Proofs.Progress
import Covenant.Proofs.Parts
import Covenant.Proofs.Functions
import Covenant.Proofs.Square
import Covenant.Proofs.Settled
import Covenant.Proofs.Nested
import Covenant.Proofs.Deep
import Covenant.Proofs.Finished
import Covenant.Proofs.Idempotence
import Covenant.Proofs.Establish
import Covenant.Proofs.Clearance
import Covenant.Proofs.Jumps
import Covenant.Proofs.Evaluation
import Covenant.Proofs.Fuel
import Covenant.Proofs.Regime
import Covenant.Proofs.Calm
import Covenant.Proofs.Stability
import Covenant.Proofs.Checking
import Covenant.Proofs.Routing
import Covenant.Proofs.Collection
import Covenant.Proofs.Enforcement
import Covenant.Proofs.Gathering
import Covenant.Proofs.Postcondition
import Covenant.Proofs.Survival
import Covenant.Proofs.Ground
import Covenant.Proofs.Guarantee
import Covenant.Proofs.Matching
import Covenant.Proofs.Likeness
import Covenant.Proofs.Mirror
import Covenant.Proofs.Woven
import Covenant.Proofs.Silence
import Covenant.Proofs.MirrorParts
import Covenant.Proofs.Simulation
import Covenant.Proofs.CallFree
import Covenant.Proofs.Quiet
import Covenant.Proofs.Acceptance
import Covenant.Proofs.Rejection
import Covenant.Proofs.Routed
import Covenant.Proofs.Weaving
import Covenant.Proofs.WovenSquare
import Covenant.Proofs.Counterpart
import Covenant.Proofs.MirrorSession
import Covenant.Proofs.Invisible
import Covenant.Proofs.Reading
import Covenant.Proofs.Governed
import Covenant.Proofs.Reference
import Covenant.Proofs.Unwrapped
import Covenant.Proofs.Returned
import Covenant.Proofs.Position
import Covenant.Proofs.Returns
import Covenant.Proofs.Sparing
import Covenant.Proofs.Performance
import Covenant.Proofs.Unshadowed
import Covenant.Proofs.Standing
import Covenant.Proofs.Violation
import Covenant.Proofs.Course
import Covenant.Proofs.Marked
import Covenant.Proofs.Entry
import Covenant.Proofs.Remainder
import Covenant.Proofs.CheckPoint
import Covenant.Proofs.Invariant
import Covenant.Proofs.Tokens
import Covenant.Proofs.Notation
import Covenant.Proofs.Interchange
import Covenant.Proofs.Stripping
import Covenant.Proofs.Unseen
import Covenant.Proofs.Tally
import Covenant.Proofs.Undone
import Covenant.Proofs.Ledger
import Covenant.Proofs.Turns
import Covenant.Proofs.Inventory
import Covenant.Proofs.Accounts
import Covenant.Proofs.Lockstep
import Covenant.Proofs.Agreement
import Covenant.Proofs.Extraction
import Covenant.Proofs.Influence
import Covenant.Proofs.Chart
import Covenant.Proofs.Resolution
import Covenant.Proofs.Landing
import Covenant.Proofs.Makeup
import Covenant.Proofs.Depth
import Covenant.Proofs.Assembly
import Covenant.Proofs.Guarding
import Covenant.Proofs.Quotation
import Covenant.Proofs.Parentheses
import Covenant.Proofs.Numeral
import Covenant.Proofs.Opening
import Covenant.Proofs.Mention
import Covenant.Proofs.Series
import Covenant.Proofs.Grammar
import Covenant.Proofs.Unambiguous
import Covenant.Proofs.ScopeTree
import Covenant.Proofs.Hoisting
import Covenant.Proofs.Effects
import Covenant.Proofs.Report
import Covenant.Proofs.Numbering
import Covenant.Proofs.Elements
import Covenant.Proofs.NormalForm
import Covenant.Proofs.Conflict
import Covenant.Proofs.Spelling
import Covenant.Proofs.Order
import Covenant.Proofs.NumericText
import Covenant.Proofs.Bitwise
import Covenant.Proofs.Coverage
import Covenant.Proofs.Equality
