import WordMachine.Chunk
import WordMachine.Command
import WordMachine.Command.Help
import WordMachine.Command.Options
import WordMachine.Command.Request
import WordMachine.Engine
import WordMachine.Failure
import WordMachine.Index
import WordMachine.Instruction
import WordMachine.Journal
import WordMachine.Layout
import WordMachine.Machine
import WordMachine.Main
import WordMachine.Memory
import WordMachine.Mnemonic
import WordMachine.Proofs.Acceptance
import WordMachine.Proofs.Announced
import WordMachine.Proofs.Arithmetic
import WordMachine.Proofs.Bare
import WordMachine.Proofs.Breakpoints
import WordMachine.Proofs.Calls
import WordMachine.Proofs.Ceiling
import WordMachine.Proofs.Codec
import WordMachine.Proofs.Comparison
import WordMachine.Proofs.Constant
import WordMachine.Proofs.Detour
import WordMachine.Proofs.Draft
import WordMachine.Proofs.Dump
import WordMachine.Proofs.Execution
import WordMachine.Proofs.ExitCode
import WordMachine.Proofs.Extent
import WordMachine.Proofs.Fault
import WordMachine.Proofs.Flags
import WordMachine.Proofs.Frame
import WordMachine.Proofs.Hexadecimal
import WordMachine.Proofs.History
import WordMachine.Proofs.Image
import WordMachine.Proofs.InPlace
import WordMachine.Proofs.Invariant
import WordMachine.Proofs.Labels
import WordMachine.Proofs.Lexemes
import WordMachine.Proofs.Operand
import WordMachine.Proofs.Outcome
import WordMachine.Proofs.Overlay
import WordMachine.Proofs.Padding
import WordMachine.Proofs.Position
import WordMachine.Proofs.Request
import WordMachine.Proofs.Rows
import WordMachine.Proofs.Runs
import WordMachine.Proofs.Search
import WordMachine.Proofs.Settled
import WordMachine.Proofs.Step
import WordMachine.Proofs.Stretch
import WordMachine.Proofs.Stutter
import WordMachine.Proofs.SymbolTable
import WordMachine.Proofs.Target
import WordMachine.Proofs.Tokens
import WordMachine.Proofs.Unreadable
import WordMachine.Proofs.Views
import WordMachine.Proofs.WordAccess
import WordMachine.Proofs.Wording
import WordMachine.Registers
import WordMachine.Session
import WordMachine.Statement
import WordMachine.Symbols
import WordMachine.Text.Alphanumeric
import WordMachine.Text.Character
import WordMachine.Text.Column
import WordMachine.Text.Lines
import WordMachine.Text.Numeral
import WordMachine.Text.Utf8
import WordMachine.Token
import WordMachine.View
import WordMachine.Word
