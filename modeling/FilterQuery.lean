import FilterQuery.Log
import FilterQuery.Main
import FilterQuery.Proofs.Carets
import FilterQuery.Proofs.Expectations
import FilterQuery.Proofs.Insertion
import FilterQuery.Proofs.Limits
import FilterQuery.Proofs.Parentheses
import FilterQuery.Proofs.PredicateJson
import FilterQuery.Proofs.Provenance
import FilterQuery.Proofs.Respelling
import FilterQuery.Proofs.RoundTrip
import FilterQuery.Proofs.Spans
import FilterQuery.Proofs.Substitution
import FilterQuery.Proofs.Openings
import FilterQuery.Proofs.FieldChecks
import FilterQuery.Proofs.Heights
import FilterQuery.Proofs.ByteOrder
import FilterQuery.Proofs.Reachable
import FilterQuery.Proofs.Interpretation
import FilterQuery.Proofs.ScanErrors
import FilterQuery.Proofs.Juxtaposition
import FilterQuery.Proofs.BareStrings
import FilterQuery.Proofs.Adjacency
import FilterQuery.Proofs.Equality
import FilterQuery.Proofs.Enforcement
import FilterQuery.Proofs.Simulation
