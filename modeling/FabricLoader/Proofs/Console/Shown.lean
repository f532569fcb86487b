import FabricLoader.Console

/-! A console over a run in parts. What it shows of later events depends on the earlier ones only
through its two counts, and one of these is the number of host writes. -/
namespace FabricLoader.Console

variable {threshold : Level} {console : Console}

def after (threshold : Level) (console : Console) (events : List Event) : Console :=
  events.foldl (fun console event => (console.step threshold event).1) console

theorem after_cons (event : Event) (events : List Event) :
    console.after threshold (event :: events) =
      (console.step threshold event).1.after threshold events := rfl

theorem shown_cons (event : Event) (events : List Event) :
    console.shown threshold (event :: events) = (console.step threshold event).2.toList ++
      (console.step threshold event).1.shown threshold events := rfl

theorem shown_append (before later : List Event) :
    console.shown threshold (before ++ later) = console.shown threshold before ++
      (console.after threshold before).shown threshold later := by
  induction before generalizing console with
  | nil => rfl
  | cons event before ih =>
    rw [List.cons_append, shown_cons, shown_cons, ih, List.append_assoc, after_cons]

theorem step_writes (event : Event) :
    (console.step threshold event).1.writes = console.writes + Event.hostWrites [event] := by
  cases event with
  | line line =>
    rw [step]
    split <;> rfl
  | access access => cases access <;> rfl
  | print text => rfl

theorem after_writes (events : List Event) :
    (console.after threshold events).writes = console.writes + Event.hostWrites events := by
  induction events generalizing console with
  | nil => rfl
  | cons event events ih =>
    have split : Event.hostWrites (event :: events) = _ := Event.hostWrites_append [event] events
    rw [after_cons, ih, step_writes, split, Nat.add_assoc]

/-- A line that is to be seen is shown with the number of host writes before it. -/
theorem shown_line (console : Console) {line : LogLine} (seen : threshold.shownAt line.level = true)
    (before later : List Event) : ∃ since rest,
      console.shown threshold (before ++ .line line :: later) = console.shown threshold before ++
        .line (console.writes + Event.hostWrites before) since line :: rest := by
  rw [shown_append, shown_cons, step, if_pos seen, after_writes]
  exact ⟨_, _, rfl⟩

/-- A console that has told of all host writes so far stays as it is until the next one. -/
theorem after_quiet {events : List Event} (told : console.last = console.writes)
    (quiet : ∀ event ∈ events, event.isHostWrite = false) :
    console.after threshold events = console := by
  induction events with
  | nil => rfl
  | cons event events ih =>
    have same : (console.step threshold event).1 = console := by
      have first := quiet event List.mem_cons_self
      obtain ⟨writes, last⟩ := console
      obtain rfl : last = writes := told
      cases event with
      | line line =>
        rw [step]
        split <;> rfl
      | access access =>
        cases access with
        | write address value => cases first
        | reset | read address => rfl
      | print text => rfl
    rw [after_cons, same]
    exact ih fun later member => quiet later (List.mem_cons_of_mem _ member)

theorem shown_flatMap {α : Type} {events : α → List Event} {items : List α}
    (still : ∀ item ∈ items, console.after threshold (events item) = console) :
    console.shown threshold (items.flatMap events) =
      items.flatMap fun item => console.shown threshold (events item) := by
  induction items with
  | nil => rfl
  | cons item items ih =>
    rw [List.flatMap_cons, shown_append, still item List.mem_cons_self, List.flatMap_cons,
      ih fun later member => still later (List.mem_cons_of_mem _ member)]

end FabricLoader.Console
