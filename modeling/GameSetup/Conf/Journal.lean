import GameSetup.Conf.Reader

/-!
# Journal of a reading

Everything a reader signals, kept in order: whether it started, the events, and whether it came
to the end.
-/

namespace GameSetup.Conf

/-- What has been signalled so far. -/
structure Journal where
  started : Bool
  finished : Bool
  events : List Event
  deriving DecidableEq, Repr

namespace Journal

/-- Signals taken down one after another. -/
def ofSignals (signals : List Signal) : Journal :=
  ⟨signals.contains .start, signals.contains .finish, signals.filterMap Signal.event?⟩

/-- The journal of a stream. -/
def ofStream (stream : Stream) : Journal :=
  ofSignals (signals stream)

end Journal

/-- What a listener learns that attends to assignments alone. -/
def assignments (events : List Event) : List (String × String) :=
  events.filterMap Event.assignment?

/-- The lines that could not be understood, with their numbers. -/
def badLines (events : List Event) : List (String × Nat) :=
  events.filterMap Event.badLine?

/-- Listening to the events of a list alone leaves the list as it was. -/
theorem Signal.filterMap_event?_comp_event (events : List Event) :
    events.filterMap (Signal.event? ∘ Signal.event) = events := by
  have h : Signal.event? ∘ Signal.event = some := rfl
  rw [h, List.filterMap_some]

/-- The journal's events are those of the stream. -/
theorem Journal.events_ofStream (stream : Stream) :
    (Journal.ofStream stream).events = Conf.events stream := by
  unfold Journal.ofStream Journal.ofSignals signals
  split <;>
    simp [List.filterMap_cons, List.filterMap_append, List.filterMap_map,
      Signal.filterMap_event?_comp_event, Signal.event?]

/-- A reading comes to its end exactly when the stream has no fault. -/
theorem Journal.finished_ofStream (stream : Stream) :
    (Journal.ofStream stream).finished = stream.fault.isNone := by
  unfold Journal.ofStream Journal.ofSignals signals
  split <;> simp_all

/-- The whole journal: reading has started, has come to its end or not, and has told the events. -/
theorem Journal.ofStream_eq (stream : Stream) :
    Journal.ofStream stream = ⟨true, stream.fault.isNone, Conf.events stream⟩ := by
  have hstarted : (Journal.ofStream stream).started = true := rfl
  exact congr (congr (congrArg Journal.mk hstarted) (finished_ofStream stream))
    (events_ofStream stream)

end GameSetup.Conf
