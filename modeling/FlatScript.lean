import FlatScript.Main
import FlatScript.Proofs.Nodes
import FlatScript.Proofs.Grammar.Basic
import FlatScript.Proofs.Grammar.Soundness
import FlatScript.Proofs.Grammar.Completeness
import FlatScript.Proofs.Grammar.Program
import FlatScript.Proofs.Grammar.Limits
import FlatScript.Proofs.Lexing.Lines
import FlatScript.Proofs.Relining
import FlatScript.Proofs.Grammar.Boundaries
import FlatScript.Proofs.Console.Complete
import FlatScript.Proofs.Console.Agreement
import FlatScript.Proofs.Console.Bytes
import FlatScript.Proofs.Lexing.LongestMatch
import FlatScript.Proofs.Machine
import FlatScript.Proofs.Strictness
import FlatScript.Proofs.Joining
import FlatScript.Proofs.Grammar.Provenance
import FlatScript.Proofs.Regular
import FlatScript.Proofs.Session
import FlatScript.Proofs.Console.Scan
import FlatScript.Proofs.Kinds
import FlatScript.Proofs.Relining.Parsing
import FlatScript.Proofs.Layout
import FlatScript.Proofs.Effects
import FlatScript.Proofs.Grammar.Sums
import FlatScript.Proofs.Numbers.Mixed
import FlatScript.Proofs.Comparison
import FlatScript.Proofs.Numbers.Integers
import FlatScript.Proofs.Blame
import FlatScript.Proofs.Grammar.Incremental
import FlatScript.Proofs.Grammar.Consumption
import FlatScript.Proofs.Lexing.Recovery
import FlatScript.Proofs.Lexing.Positions
import FlatScript.Proofs.Loops
import FlatScript.Proofs.Numbers.Point
import FlatScript.Proofs.Numbers.ReadBack
import FlatScript.Proofs.Store
import FlatScript.Proofs.Grammar.Depth
