import Formulary.Grammar
import Formulary.Main
import Formulary.Session
import Formulary.Proofs.Draft
import Formulary.Proofs.Lexing
import Formulary.Proofs.Progress
import Formulary.Proofs.Steps
import Formulary.Proofs.Run
import Formulary.Proofs.Written
import Formulary.Proofs.Failure
import Formulary.Proofs.Substitution
import Formulary.Proofs.Rendering
import Formulary.Proofs.Filtering
import Formulary.Proofs.Verbosity
import Formulary.Proofs.Splicing
import Formulary.Proofs.Memory
import Formulary.Proofs.Sharing
import Formulary.Proofs.LoggerState
import Formulary.Proofs.Decoding
import Formulary.Proofs.Layout
import Formulary.Proofs.Contents
import Formulary.Proofs.Outcome
import Formulary.Proofs.Composition
import Formulary.Proofs.Grouping
import Formulary.Proofs.Foreign
import Formulary.Proofs.Lookahead
import Formulary.Proofs.Segmentation
import Formulary.Proofs.Spacing
import Formulary.Proofs.TokenCounts
import Formulary.Proofs.Outlines
import Formulary.Proofs.Reuse
import Formulary.Proofs.Grafting
import Formulary.Proofs.Tallies
import Formulary.Proofs.Nesting
