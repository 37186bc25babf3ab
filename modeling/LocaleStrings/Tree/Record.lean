import LocaleStrings.Tree.Walk

/-!
# Recording walks

A recorder notes every event of a walk, and stops the walk at a given occurrence of a given event.

* `Recorder`: the events so far and the stop that is asked for;
* `Recorder.hooks`: notes entering and leaving;
* `Recorder.visits`: notes the nodes it comes to, and passes over the children of some types.
-/

namespace LocaleStrings

/-- The events of a walk, last one first, and when to stop. -/
structure Recorder where
  events : List String
  /-- The event to stop at, and how many of them are still to come. -/
  stopAt : Option (String × Nat)

namespace Recorder

/-- A recorder that has noted nothing. -/
def start (stopAt : Option (String × Nat)) : Recorder := ⟨[], stopAt⟩

/-- Notes an event at a node. -/
def note (label : String) (n : Node) (r : Recorder) : Recorder × Flow :=
  let events := s!"{label}@{n.span.start}-{n.span.stop}" :: r.events
  match r.stopAt with
  | some (wanted, left) =>
    if wanted = label then
      (⟨events, some (wanted, left - 1)⟩, if left - 1 = 0 then .stop else .go)
    else (⟨events, r.stopAt⟩, .go)
  | none => (⟨events, none⟩, .go)

/-- Notes entering and leaving every node. -/
def hooks : Visitor Recorder :=
  .ofHooks (fun n => note s!"enter:{n.type.name}" n) (fun n => note s!"exit:{n.type.name}" n)

/-- Notes every node it comes to, and passes over the children of nodes of the given types. -/
def visits (skipped : List NodeType) : Visitor Recorder :=
  .ofNotes (fun n => note s!"visit:{n.type.name}" n) skipped.contains

end Recorder

end LocaleStrings
