import PlainMath.Main
import PlainMath.Proofs.Arrow.Interleaving
import PlainMath.Tree.Equality
import PlainMath.Proofs.Layout.Shape
import PlainMath.Proofs.Text.Pieces
import PlainMath.Proofs.Text.Plain
import PlainMath.Proofs.Markup.Balanced
import PlainMath.Proofs.Markup.WellFormed
import PlainMath.Proofs.Grammar.Progress
import PlainMath.Proofs.Grammar.Coverage
import PlainMath.Proofs.Arrow.Undoing
import PlainMath.Proofs.Grammar.Accounting
import PlainMath.Proofs.Layout.Conservation
import PlainMath.Proofs.Markup.Census
import PlainMath.Proofs.Markup.Arity
import PlainMath.Proofs.Grammar.Closing
import PlainMath.Proofs.Grammar.Nesting
import PlainMath.Proofs.Grammar.TrailingBlanks
import PlainMath.Proofs.Arrow.Written
import PlainMath.Proofs.Layout.BracePairs
import PlainMath.Proofs.Layout.BraceCount
import PlainMath.Proofs.Layout.Finished
import PlainMath.Proofs.Layout.Replacing
import PlainMath.Proofs.Layout.Kinds
import PlainMath.Proofs.Layout.Keeping
import PlainMath.Proofs.Layout.Repeated
import PlainMath.Proofs.Layout.Leftovers
import PlainMath.Proofs.Layout.Places
import PlainMath.Proofs.Markup.Tightened
import PlainMath.Proofs.Markup.Cosmetic
import PlainMath.Proofs.Grammar.Operands
import PlainMath.Proofs.Layout.Unwrapping
import PlainMath.Proofs.Layout.InPlace
import PlainMath.Proofs.Layout.Stranded
import PlainMath.Proofs.Data.JsonReader
import PlainMath.Proofs.Data.Decoding
import PlainMath.Proofs.Grammar.Matrix
import PlainMath.Proofs.Layout.Runs
import PlainMath.Proofs.Layout.Radicands
import PlainMath.Proofs.Arrow.Drawings
import PlainMath.Proofs.Arrow.Stacks
import PlainMath.Proofs.Symbol.Greatest
import PlainMath.Proofs.Grammar.Numerals
import PlainMath.Proofs.Outline
import PlainMath.Proofs.Document.Splicing
import PlainMath.Proofs.Document.Paragraphs
import PlainMath.Proofs.Grammar.Recursion
import PlainMath.Proofs.Layout.Termination
import PlainMath.Proofs.Grammar.Context
