import Concordance.Category.Family
import Concordance.Hit.Order
import Concordance.Logging
import Concordance.Main
import Concordance.Settings
import Concordance.Proofs.Pattern.Grammar
import Concordance.Proofs.Pattern.Language
import Concordance.Proofs.Matcher.Soundness
import Concordance.Proofs.Matcher.Slices
import Concordance.Proofs.Matcher.Completeness
import Concordance.Proofs.Matcher.Composition
import Concordance.Proofs.Tokenizer.Joining
import Concordance.Proofs.Tokenizer.Places
import Concordance.Proofs.Lexicon.Entries
import Concordance.Proofs.Lexicon.Runs
import Concordance.Proofs.Pattern.Rewriting
import Concordance.Proofs.Registry.Quotation
import Concordance.Proofs.Registry.Transcript
import Concordance.Proofs.Tokenizer.Boundary
import Concordance.Proofs.Tagging.Alignment
import Concordance.Proofs.Tagging.Segments
import Concordance.Proofs.Tokenizer.Enclitic
import Concordance.Proofs.Pattern.Refusals
import Concordance.Proofs.Lexicon.Casing
import Concordance.Proofs.Condition.Globs
import Concordance.Proofs.Matcher.Literals
import Concordance.Proofs.Pattern.Grouping
import Concordance.Proofs.Matcher.Lists
import Concordance.Proofs.Category.Codes
import Concordance.Proofs.Hit.Comparison
import Concordance.Proofs.CommandLine.Reports
import Concordance.Proofs.Pattern.ReadingOrder
import Concordance.Proofs.Matcher.Agreement
import Concordance.Proofs.Matcher.Invariant
import Concordance.Proofs.Tokenizer.Resuming
import Concordance.Proofs.Matcher.Verbatim
import Concordance.Proofs.Tokenizer.Progress
import Concordance.Proofs.Pattern.Lexing
