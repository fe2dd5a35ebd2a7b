import PeerGateway.Directory.Basic

/-!
# Silence

A sweep ages a directory: a connected peer that was silent for the whole window becomes
stale, and a stale one whose grace is over, or a joining one that was silent for the
window, is taken out. `Entry.fate` says it for one entry.
-/

namespace PeerGateway

/-- A change that a sweep made. -/
inductive Transition
  | stale (id : NodeId)
  | left (id : NodeId)
  deriving DecidableEq, Repr

namespace Transition

/-- The peer that changed. -/
def nodeId : Transition → NodeId
  | .stale id => id
  | .left id => id

end Transition

/-- What a sweep does with an entry. -/
inductive Fate
  | stays
  | goesStale
  | leaves
  deriving DecidableEq, Repr

/-- What a sweep does with an entry. -/
def Entry.fate (e : Entry) (now : Instant) (window grace : Span) : Fate :=
  match e.state with
  | .connected => if window ≤ now.since e.lastSeen then .goesStale else .stays
  | .stale => if grace ≤ now.since e.staleFrom then .leaves else .stays
  | .joining => if window ≤ now.since e.lastSeen then .leaves else .stays

/-- The entry after a sweep, if it is still there. -/
def Entry.swept? (e : Entry) (now : Instant) (window grace : Span) : Option Entry :=
  match e.fate now window grace with
  | .stays => some e
  | .goesStale => some (e.moved .stale now)
  | .leaves => none

/-- The change that a sweep makes to an entry. -/
def Entry.transition? (id : NodeId) (e : Entry) (now : Instant) (window grace : Span) :
    Option Transition :=
  match e.fate now window grace with
  | .stays => none
  | .goesStale => some (.stale id)
  | .leaves => some (.left id)

namespace Directory

/-- Ages the directory as of an instant, and tells what changed. -/
def sweep (d : Directory) (now : Instant) (window grace : Span) : List Transition × Directory :=
  (d.entries.toList.filterMap fun m => m.2.transition? m.1 now window grace,
    { d with entries := d.entries.filterMap fun _ e => e.swept? now window grace })

end Directory

end PeerGateway
