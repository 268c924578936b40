import ResourceLookup.Registry.Roster
import ResourceLookup.Session.Basic
import ResourceLookup.Proofs.Lookup.Choice
import ResourceLookup.Proofs.Key.Steps
import ResourceLookup.Proofs.Lookup.Derivation
import ResourceLookup.Proofs.Lookup.Literal
import ResourceLookup.Proofs.Lookup.Simulation
import ResourceLookup.Proofs.Session.Independence
import ResourceLookup.Proofs.Session.ReadBack
import ResourceLookup.Proofs.Lookup.Pattern
import ResourceLookup.Proofs.Session.Dominance
import ResourceLookup.Proofs.Session.Frame
import ResourceLookup.Proofs.Registry.Names
import ResourceLookup.Proofs.Registry.Unregistering
import ResourceLookup.Proofs.Session.Reentry
import ResourceLookup.Proofs.Session.Probing
import ResourceLookup.Proofs.Properties.Joining
import ResourceLookup.Proofs.Tree.Listing
import ResourceLookup.Proofs.Properties.Decoding
import ResourceLookup.Proofs.Properties.Writing
import ResourceLookup.Proofs.Properties.Reading
import ResourceLookup.Proofs.Session.RoundTrip
import ResourceLookup.Proofs.Key.Grammar
import ResourceLookup.Proofs.Session.Dump
import ResourceLookup.Proofs.Session.SinglePattern
import ResourceLookup.Proofs.Session.FreshPosition
import ResourceLookup.Proofs.Properties.Composition
import ResourceLookup.Proofs.Store.Loading
import ResourceLookup.Proofs.Session.Refusal
import ResourceLookup.Proofs.Registry.Desertion
import ResourceLookup.Proofs.Value.Stored
import ResourceLookup.Proofs.Types.Ancestry
import ResourceLookup.Proofs.Session.Chaining
import ResourceLookup.Proofs.Key.Rewriting
import ResourceLookup.Proofs.Key.Joining
import ResourceLookup.Proofs.Types.Repetition
import ResourceLookup.Proofs.Session.LooseSegments
import ResourceLookup.Proofs.Lookup.Bookkeeping
