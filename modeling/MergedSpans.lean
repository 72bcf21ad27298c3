import MergedSpans.AddressSet
import MergedSpans.Chain.Traversal
import MergedSpans.Chain.Text
import MergedSpans.Chain.Update
import MergedSpans.LockedSet
import MergedSpans.Workload
import MergedSpans.Proofs.Store.History
import MergedSpans.Proofs.Store.Tiers
import MergedSpans.Proofs.Store.Peak
import MergedSpans.Proofs.Store.Emptying
import MergedSpans.Proofs.Agreement
import MergedSpans.Proofs.Chain.Canonical
import MergedSpans.Proofs.Chain.Coverage
import MergedSpans.Proofs.Chain.Repair
import MergedSpans.Proofs.Chain.Replacement
import MergedSpans.Proofs.Chain.Sequence
import MergedSpans.Proofs.LockedSet
import MergedSpans.Proofs.Registry.Overflow
import MergedSpans.Proofs.Registry.Sizing
import MergedSpans.Proofs.AddressRuns
import MergedSpans.Proofs.Span.Order
import MergedSpans.Proofs.Chain.Dump
import MergedSpans.Proofs.Workload
