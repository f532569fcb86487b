import FabricLoader.Proofs.Loader.Carries

/-! Where the lines of a load come from. A line is one of the loader's own, or it follows one of its
accesses to the bus; and then the bus reports the access, or a device on the bus logs what the access
did to it. -/
namespace FabricLoader

/-- A member of two lists in a row lies in the first or in the second of them. -/
private theorem split_append {α : Type} {first second before after : List α} {a : α}
    (split : first ++ second = before ++ a :: after) :
    (∃ rest, first = before ++ a :: rest) ∨
      ∃ more, before = first ++ more ∧ second = more ++ a :: after := by
  rcases List.append_eq_append_iff.mp split with later | ⟨_ | ⟨_, rest⟩, early, tail⟩
  · exact .inr later
  · exact .inr ⟨[], by simpa using early.symm, tail.symm⟩
  · obtain ⟨rfl, _⟩ := List.cons.inj tail
    exact .inl ⟨rest, early⟩

namespace Event

/-- Behind an access that is followed by lines alone, no other access stands before any of them. -/
theorem accesses_before {a : Access} {lines : List LogLine} {before after : List Event}
    {line : LogLine} (split : .access a :: lines.map .line = before ++ .line line :: after) :
    accesses before = [a] := by
  cases before with
  | nil => cases (List.cons.inj split).1
  | cons first before =>
    obtain ⟨rfl, rest⟩ := List.cons.inj split
    have none : accesses (before ++ .line line :: after) = [] := by
      rw [← show lines.map .line = before ++ .line line :: after from rest, Bus.accesses_lines]
    rw [accesses_append] at none
    exact congrArg (a :: ·) (List.append_eq_nil_iff.mp none).1

end Event

/-- A line that a bus logs by itself: it warns of nothing but addresses without a device. -/
def LogLine.OfBus (line : LogLine) : Prop :=
  line.level = .warn → ∃ rest, line.text = "read of unmapped addr=" ++ rest ∨
    line.text = "write to unmapped addr=" ++ rest

def Slot.lines {δ : Type} [Peripheral δ] (slot : Slot δ) : Access → List LogLine
  | .reset => (Peripheral.reset slot.device).events
  | .read address =>
    if slot.covers address then (Peripheral.read (address - slot.start) slot.device).events else []
  | .write address value =>
    if slot.covers address then
      (Peripheral.write (address - slot.start) value slot.device).events
    else []

namespace Bus
variable {δ : Type} [Peripheral δ] {bus : Bus δ} {a : Access} {line : LogLine}

def trail (bus : Bus δ) : Access → List Event
  | .reset => (reset bus).events
  | .read address => (read address bus).events
  | .write address value => (write address value bus).events

theorem lines_resetSlot {slots : List (Slot δ)} (member : line ∈ (resetSlot.each slots).events) :
    line.OfBus ∨ ∃ slot ∈ slots, line ∈ slot.lines .reset := by
  induction slots with
  | nil => cases member
  | cons slot rest ih =>
    rcases List.mem_append.mp member with here | later
    · rcases List.mem_cons.mp here with rfl | device
      · exact .inl nofun
      · exact .inr ⟨slot, List.mem_cons_self, device⟩
    · refine (ih later).imp_right ?_
      rintro ⟨other, among, device⟩
      exact ⟨other, List.mem_cons_of_mem _ among, device⟩

/-- An access is left behind first, and then lines of the bus and of a device on it. -/
theorem trail_eq_cons (ordered : Slot.Ordered bus.slots) (a : Access) :
    ∃ lines : List LogLine, bus.trail a = .access a :: lines.map .line ∧
      ∀ line ∈ lines, line.OfBus ∨ ∃ slot ∈ bus.slots, line ∈ slot.lines a := by
  have calm (text : String) : LogLine.OfBus ⟨.trace, text⟩ := nofun
  cases a with
  | reset => exact ⟨_, rfl, fun line => lines_resetSlot⟩
  | read address =>
    rw [trail, read_apply]
    cases routed : bus.route? address with
    | none =>
      refine ⟨[_, _], rfl, ?_⟩
      simp only [List.forall_mem_cons]
      exact ⟨.inl (calm _), .inl fun _ => ⟨_, .inl rfl⟩, nofun⟩
    | some found =>
      obtain ⟨atI, covers⟩ := (route?_eq_some_iff ordered).mp routed
      refine ⟨_ :: _, rfl, List.forall_mem_cons.mpr ⟨.inl (calm _), fun line member => ?_⟩⟩
      exact .inr ⟨found.2, List.mem_of_getElem? atI, by rwa [Slot.lines, if_pos covers]⟩
  | write address value =>
    rw [trail, write_apply]
    cases routed : bus.route? address with
    | none =>
      refine ⟨[_, _], rfl, ?_⟩
      simp only [List.forall_mem_cons]
      refine ⟨.inl (calm _), .inl fun _ => ⟨s!"{Text.hexWord address} value={Text.hexWord value}", ?_⟩,
        nofun⟩
      exact .inr (by simp [toString, String.append_assoc])
    | some found =>
      obtain ⟨atI, covers⟩ := (route?_eq_some_iff ordered).mp routed
      refine ⟨_ :: _, rfl, List.forall_mem_cons.mpr ⟨.inl (calm _), fun line member => ?_⟩⟩
      exact .inr ⟨found.2, List.mem_of_getElem? atI, by rwa [Slot.lines, if_pos covers]⟩

theorem trail_split (ordered : Slot.Ordered bus.slots) {before after : List Event}
    (split : bus.trail a = before ++ .line line :: after) :
    ∃ earlier last, Event.accesses before = earlier ++ [last] ∧
      (line.OfBus ∨ ∃ slot ∈ (bus.replay earlier).slots, line ∈ slot.lines last) := by
  obtain ⟨lines, trailed, origin⟩ := trail_eq_cons ordered a
  rw [trailed] at split
  have member : .line line ∈ Event.access a :: lines.map .line := split ▸ by simp
  exact ⟨[], a, Event.accesses_before split, origin line (by simpa using member)⟩

end Bus

/-- A line of an action that drives a bus is one of its own, or the last access before it has made the
bus or a device log it. -/
theorem Drives.line_split {δ σ α : Type} [Peripheral δ] {view : σ → Bus δ} {action : Action Event σ α}
    (drives : Drives view action) {s : σ} (ordered : Slot.Ordered (view s).slots)
    {before after : List Event} {line : LogLine}
    (split : (action s).events = before ++ .line line :: after) :
    line.Own ∨ ∃ earlier last, Event.accesses before = earlier ++ [last] ∧
      (line.OfBus ∨ ∃ slot ∈ ((view s).replay earlier).slots, line ∈ slot.lines last) := by
  induction drives generalizing before after with
  | quiet _ lines =>
    obtain ⟨logged, own, only⟩ := lines s
    have member : Event.line line ∈ logged.map .line := (only.symm.trans split) ▸ by simp
    exact .inl (own line (by simpa using member))
  | write address value => exact .inr (Bus.trail_split (a := .write address value) ordered split)
  | read address => exact .inr (Bus.trail_split (a := .read address) ordered split)
  | reset => exact .inr (Bus.trail_split (a := .reset) ordered split)
  | @bind _ _ _ _ action _ first _ ihFirst ihRest =>
    rw [Action.bind_apply] at split
    rcases split_append split with ⟨rest, early⟩ | ⟨more, rfl, later⟩
    · exact ihFirst ordered early
    · have reached := first.replayed s
      refine (ihRest _ (reached ▸ Bus.ordered_replay ordered _) later).imp_right ?_
      rintro ⟨earlier, last, accesses, origin⟩
      refine ⟨Event.accesses (action s).events ++ earlier, last, ?_, ?_⟩
      · rw [Event.accesses_append, accesses, List.append_assoc]
      · rwa [Bus.replay_append, ← reached]
  | part begins ends _ ih | around begins ends _ ih =>
    rw [begins] at ordered ⊢
    exact ih ordered split

end FabricLoader
