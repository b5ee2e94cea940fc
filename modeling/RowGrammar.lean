import RowGrammar.Fixture
import RowGrammar.Main
import RowGrammar.Proofs.ArithmeticGrammar.Parsing
import RowGrammar.Proofs.Comparison
import RowGrammar.Proofs.Derivation.Contexts
import RowGrammar.Proofs.Derivation.Correcting
import RowGrammar.Proofs.Derivation.Escaping
import RowGrammar.Proofs.Derivation.Expanding
import RowGrammar.Proofs.Derivation.Fidelity
import RowGrammar.Proofs.Derivation.Filling
import RowGrammar.Proofs.Derivation.Fragments
import RowGrammar.Proofs.Derivation.Locating
import RowGrammar.Proofs.Derivation.Minimality
import RowGrammar.Proofs.Derivation.Placing
import RowGrammar.Proofs.Divergence
import RowGrammar.Proofs.Exhaustion
import RowGrammar.Proofs.Expectation
import RowGrammar.Proofs.Grammar.Acceptance
import RowGrammar.Proofs.Grammar.Consistency
import RowGrammar.Proofs.Grammar.Ledger
import RowGrammar.Proofs.History
import RowGrammar.Proofs.Irreducible
import RowGrammar.Proofs.JsonGrammar.Parsing
import RowGrammar.Proofs.Reduction.Termination
import RowGrammar.Proofs.Regex.Composite
import RowGrammar.Proofs.Regex.Lexing
import RowGrammar.Proofs.Regex.Matching
import RowGrammar.Proofs.Regex.Settled
import RowGrammar.Proofs.Reloaded
import RowGrammar.Proofs.Rendering
import RowGrammar.Proofs.Repair.Convergence
import RowGrammar.Proofs.Repair.Finality
import RowGrammar.Proofs.Session
import RowGrammar.Proofs.Simplification
import RowGrammar.Proofs.Strictness
import RowGrammar.Proofs.Suppression
import RowGrammar.Proofs.SymbolPattern.Absorbing
import RowGrammar.Proofs.Token.Walk
import RowGrammar.Proofs.TokenPattern.Expansion
import RowGrammar.Proofs.TokenPattern.PlainWords
import RowGrammar.Proofs.Tokenization
