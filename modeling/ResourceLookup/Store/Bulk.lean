import ResourceLookup.Properties.Stream
import ResourceLookup.Report
import ResourceLookup.Store.Basic

/-!
# Many resources at once

Entries are stored one after the other; those with malformed keys are passed over and reported.
A property stream is read to its end before anything is stored, so that a stream that fails
changes nothing.
-/

namespace ResourceLookup

/-- The warnings that a report gives rise to, one for each key passed over. -/
def Report.warnings (r : Report) : List Warning := r.skipped.map .malformedKey

namespace Store

/-- Stores an entry or passes it over, and tells which. -/
def insertEntry (s : Store) (e : Entry) : Store × Report :=
  match s.insertText e.key e.value with
  | .ok stored => (stored, ⟨1, []⟩)
  | .error _ => (s, ⟨0, [e.key]⟩)

/-- Stores entries in order. -/
def insertAll (s : Store) (entries : List Entry) : Store × Report :=
  entries.foldl (fun (s, report) e =>
    let (s, one) := s.insertEntry e
    (s, report.merge one)) (s, .empty)

/-- Stores the entries of a property stream. The warnings about malformed escapes come before
those about malformed keys. -/
def readResources (s : Store) (source : Source) : Store × Logged Report :=
  let parsed := Properties.parse source
  match parsed.outcome with
  | .error e => (s, ⟨.error e, parsed.warnings⟩)
  | .ok entries =>
    let (loaded, report) := s.insertAll entries
    (loaded, ⟨.ok report, parsed.warnings ++ report.warnings⟩)

/-- A stream that fails changes nothing. -/
theorem readResources_of_failure (s : Store) {source : Source} {cause : Text}
    (h : source.failure = some cause) : (s.readResources source).1 = s := by
  simp [readResources, Properties.parse, h]

end Store

end ResourceLookup
