import A64Text.Binary64.Basic
import A64Text.Binary64.Shortest
import A64Text.Condition
import A64Text.Contract
import A64Text.Exchange.Decode
import A64Text.Exchange.Encode
import A64Text.Instruction
import A64Text.Json.Basic
import A64Text.Json.Equality
import A64Text.Json.Lexeme
import A64Text.Json.Printer
import A64Text.Json.Reader
import A64Text.Layout.Basic
import A64Text.Layout.ControlFlow
import A64Text.Layout.Family
import A64Text.Layout.Field
import A64Text.Layout.ImmediateForms
import A64Text.Layout.Memory
import A64Text.Layout.RegisterForms
import A64Text.Layout.System
import A64Text.Line.Basic
import A64Text.Line.Fusion
import A64Text.Line.Lexeme
import A64Text.Line.Reader
import A64Text.Number
import A64Text.Opcode.Basic
import A64Text.Opcode.Family
import A64Text.Operand.Address
import A64Text.Operand.Basic
import A64Text.Operand.Immediate
import A64Text.Operand.Modifier
import A64Text.Operand.Register
import A64Text.Operand.SystemRegister
import A64Text.Router
import A64Text.Session
import A64Text.Text.Case
import A64Text.Text.NameSet
import A64Text.Text.Numeral
import A64Text.Text.Quoted
import A64Text.Text.Units
import A64Text.Token
import A64Text.Trace
import A64Text.Proofs.Bisection
import A64Text.Proofs.FieldTypes
import A64Text.Proofs.OpcodeFamily
import A64Text.Proofs.FamilyRanges
import A64Text.Proofs.Line.Phrases
import A64Text.Proofs.Numeral
import A64Text.Proofs.Signature
import A64Text.Proofs.Layout.Outcome
import A64Text.Proofs.Layout.Parts
import A64Text.Proofs.Layout.ImmediateForms
import A64Text.Proofs.Layout.ControlFlow
import A64Text.Proofs.Layout.Field
import A64Text.Proofs.Layout.System
import A64Text.Proofs.Layout.Memory
import A64Text.Proofs.Layout.RegisterForms
import A64Text.Proofs.Layout.Family
import A64Text.Proofs.Routing
import A64Text.Proofs.TokenStream
import A64Text.Proofs.Acceptance
import A64Text.Proofs.Checks
import A64Text.Proofs.Line.Fusion
import A64Text.Proofs.Line.Reading
import A64Text.Proofs.Line.Operands
import A64Text.Proofs.PrintRead
import A64Text.Proofs.Json.Spelling
import A64Text.Proofs.Json.WriteRead
import A64Text.Proofs.Exchange.Names
import A64Text.Proofs.Layout.Naming
import A64Text.Proofs.Exchange.Instructions
import A64Text.Proofs.Exchange.Equality
import A64Text.Proofs.Exchange.Canonical
import A64Text.Proofs.Line.Grammar
import A64Text.Proofs.Forms
import A64Text.Proofs.Line.Derivation
import A64Text.Proofs.Line.Normal
import A64Text.Proofs.Meaning.Aliases
import A64Text.Proofs.Recovery.Agreement
import A64Text.Proofs.Layout.Text
import A64Text.Proofs.Dependence
import A64Text.Proofs.Tracing
import A64Text.Proofs.Meaning.Bitfields
import A64Text.Proofs.Recovery.Slots
import A64Text.Proofs.Recovery.ControlFlow
import A64Text.Proofs.Exchange.Validation
import A64Text.Proofs.Meaning.Selections
import A64Text.Proofs.IdleModifiers
import A64Text.Proofs.Line.Respelling
import A64Text.Proofs.Line.Faults
import A64Text.Proofs.Line.Amounts
import A64Text.Proofs.Recovery.Addresses
import A64Text.Proofs.Meaning.Offsets
import A64Text.Proofs.Meaning.WideMoves
