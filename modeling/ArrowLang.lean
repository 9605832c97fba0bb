import ArrowLang.Env.Store
import ArrowLang.Main
import ArrowLang.Proofs.Accumulation
import ArrowLang.Proofs.Annotations
import ArrowLang.Proofs.Constants
import ArrowLang.Proofs.Costs
import ArrowLang.Proofs.Histories
import ArrowLang.Proofs.Relayout
import ArrowLang.Proofs.Sequences
import ArrowLang.Proofs.Shapes
import ArrowLang.Proofs.SpanOrder
import ArrowLang.Proofs.Strategies
import ArrowLang.Term.Equality
import ArrowLang.Verdict.Candidate
