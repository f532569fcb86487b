import FabricLoader.Loader.Basic

/-! Actions that reach a bus only by the bus's own operations. All that a loader does is of this kind,
through whatever sinks, so what holds of the operations and of log lines and is kept by sequencing
holds of every load. -/
namespace FabricLoader

/-- A line that a loader may log by itself: its only warning tells of a restart. -/
def LogLine.Own (line : LogLine) : Prop :=
  line.level = .warn → ∃ front, line.text = front ++ "Restarting from entry 0"

/-- The action acts on the bus in its state by writes, reads and resets alone; what else it does leaves
the bus as it is and nothing but log lines of its own behind. -/
inductive Drives {δ : Type} [Peripheral δ] :
    {σ α : Type} → (σ → Bus δ) → Action Event σ α → Prop
  | quiet {σ α : Type} {view : σ → Bus δ} {action : Action Event σ α}
      (still : ∀ s, view (action s).state = view s)
      (lines : ∀ s, ∃ lines : List LogLine, (∀ line ∈ lines, line.Own) ∧
        (action s).events = lines.map .line) : Drives view action
  | write (address value : UInt32) : Drives id (Bus.write address value)
  | read (address : UInt32) : Drives id (Bus.read address)
  | reset : Drives id Bus.reset
  | bind {σ α β : Type} {view : σ → Bus δ} {first : Action Event σ α} {next : α → Action Event σ β}
      (drives : Drives view first) (rest : ∀ a, Drives view (next a)) : Drives view (first >>= next)
  /-- An action on a part of the state with the bus in it. -/
  | part {σ τ α : Type} {view : σ → Bus δ} {outer : τ → Bus δ} {get : τ → σ} {set : σ → τ → τ}
      {action : Action Event σ α} (begins : ∀ t, outer t = view (get t))
      (ends : ∀ s t, outer (set s t) = view s) (drives : Drives view action) :
      Drives outer (action.onPart get set)
  /-- An action on something built around the bus. -/
  | around {σ τ α : Type} {view : τ → Bus δ} {outer : σ → Bus δ} {build : σ → τ} {restore : τ → σ}
      {action : Action Event τ α} (begins : ∀ s, outer s = view (build s))
      (ends : ∀ t, outer (restore t) = view t) (drives : Drives view action) :
      Drives outer (action.around build restore)

namespace Drives
variable {δ σ α : Type} [Peripheral δ] {view : σ → Bus δ}

theorem pure (a : α) : Drives view (Pure.pure a : Action Event σ α) :=
  .quiet (fun _ => rfl) fun _ => ⟨[], nofun, rfl⟩

theorem state : Drives view Action.state := .quiet (fun _ => rfl) fun _ => ⟨[], nofun, rfl⟩

theorem log (level : Level) (text : String) (calm : level ≠ .warn) :
    Drives view (Action.log level text) :=
  .quiet (fun _ => rfl) fun _ => ⟨[⟨level, text⟩], by simp [LogLine.Own, calm], rfl⟩

theorem logRestart (front : String) :
    Drives view (Action.log .warn (front ++ "Restarting from entry 0")) :=
  .quiet (fun _ => rfl) fun _ => ⟨[_], by simp [LogLine.Own], rfl⟩

end Drives

namespace HostSink
variable {δ : Type} [Peripheral δ]

theorem drives_busWrite (address value : UInt32) : Drives bus (busWrite (δ := δ) address value) :=
  .part (fun _ => rfl) (fun _ _ => rfl) (.write address value)

theorem drives_writeEntry (address value : UInt32) : Drives bus (writeEntry (δ := δ) address value) := by
  refine Drives.state.bind fun sink => ?_
  split
  · exact .pure _
  · exact .pure _
  · refine (drives_busWrite _ _).bind fun result => ?_
    cases result with
    | error e => exact .pure _
    | ok => exact drives_busWrite _ _

theorem drives_writeControl (address value : UInt32) :
    Drives bus (writeControl (δ := δ) address value) := by
  refine Drives.state.bind fun sink => ?_
  split
  · exact .pure _
  · exact drives_busWrite _ _

end HostSink

theorem Traced.drives_through {δ σ : Type} [Peripheral δ] {view : σ → Bus δ}
    {write : Action Event σ (Except WriteError Unit)} (drives : Drives view write) (kind : String)
    (address value : UInt32) :
    Drives (fun sink => view sink.inner) (through kind address value write) := by
  have counted : Drives (fun sink : Traced σ => view sink.inner)
      (Action.update fun sink => { sink with count := sink.count + 1 }) :=
    .quiet (fun _ => rfl) fun _ => ⟨[], nofun, rfl⟩
  refine Drives.state.bind fun sink => (Drives.log _ _ (by decide)).bind fun _ => counted.bind fun _ => ?_
  exact .part (fun _ => rfl) (fun _ _ => rfl) drives

namespace Applier
variable {δ σ : Type} [Peripheral δ] [RegisterSink σ] {view : σ → Bus δ}

theorem drives_stream (write : ∀ address value, Drives view (RegisterSink.write address value))
    (cancel : Nat → σ → Bool) (entries : List Entry) (index : Nat) :
    Drives view (stream cancel index entries) := by
  induction entries generalizing index with
  | nil => exact .pure _
  | cons e rest ih =>
    refine Drives.state.bind fun sink => ?_
    split
    · exact (Drives.log _ _ (by decide)).bind fun _ => .pure _
    · refine (write _ _).bind fun result => ?_
      cases result with
      | error cause => exact (Drives.log _ _ (by decide)).bind fun _ => .pure _
      | ok => exact ih _

theorem drives_applyUntil (write : ∀ address value, Drives view (RegisterSink.write address value))
    (control : ∀ address value, Drives view (RegisterSink.writeControl address value))
    (applier : Applier) (cancel : Nat → σ → Bool) (image : Image) :
    Drives view (applier.applyUntil cancel image) := by
  refine (drives_stream write cancel _ _).bind fun result => ?_
  cases result with
  | error e => exact .pure _
  | ok =>
    cases image.control with
    | none => exact .pure _
    | some value =>
      dsimp only
      refine Drives.state.bind fun sink => ?_
      split
      · exact (Drives.log _ _ (by decide)).bind fun _ => .pure _
      · refine (control _ _).bind fun result => ?_
        cases result <;> exact .pure _

end Applier

namespace Loader
variable {δ : Type} [Peripheral δ] (loader : Loader) (name : String) (image : Image)
  (applier : Applier)

theorem drives_attempt (number : Nat) :
    Drives id (loader.attempt (δ := δ) name image applier number) := by
  refine Drives.bind ?_ fun result => (Drives.log _ _ (by decide)).bind fun _ => .pure _
  exact .around (fun _ => rfl) (fun _ => rfl) (Applier.drives_applyUntil
    (fun _ _ => Traced.drives_through (HostSink.drives_writeEntry _ _) _ _ _)
    (fun _ _ => Traced.drives_through (HostSink.drives_writeControl _ _) _ _ _) applier _ image)

/-- One attempt drives the bus if those after it do. -/
private theorem drives_attempts_of {number left : Nat}
    (later : ∀ fewer, left = fewer + 1 →
      Drives id (loader.attempts (δ := δ) name image applier (number + 1) fewer)) :
    Drives id (loader.attempts (δ := δ) name image applier number left) := by
  rw [attempts]
  refine Drives.reset.bind fun _ => (Drives.write _ _).bind fun held => ?_
  cases held with
  | error cause => exact .pure _
  | ok =>
    refine (loader.drives_attempt name image applier number).bind fun result => ?_
    cases result with
    | ok report => exact (Drives.log _ _ (by decide)).bind fun _ => .pure _
    | error e =>
      cases e with
      | entryWrite index cause =>
        cases left with
        | zero => exact .pure _
        | succ fewer => exact (Drives.logRestart _).bind fun _ => later fewer rfl
      | controlWrite | cancelled => exact .pure _

theorem drives_attempts (number left : Nat) :
    Drives id (loader.attempts (δ := δ) name image applier number left) := by
  induction left generalizing number with
  | zero => exact loader.drives_attempts_of name image applier (by intro _ h; cases h)
  | succ left ih =>
    refine loader.drives_attempts_of name image applier ?_
    intro fewer h
    cases h
    exact ih _

theorem drives_program (retries : UInt32) :
    Drives id (loader.program (δ := δ) name image applier retries) :=
  loader.drives_attempts name image applier _ _

theorem drives_verify : Drives id (loader.verify (δ := δ) name image) := by
  refine (Drives.read _).bind fun address => (Drives.read _).bind fun value => ?_
  split
  · exact (Drives.log _ _ (by decide)).bind fun _ => .pure _
  · exact .pure _

theorem drives_install (request : ImageRequest) :
    Drives id (loader.install (δ := δ) name image request) := by
  refine (loader.drives_program name image _ _).bind fun result => ?_
  cases result with
  | error e => exact .pure _
  | ok report =>
    dsimp only
    split
    · exact (loader.drives_verify name image).bind fun _ => .pure _
    · exact .pure _

end Loader
end FabricLoader
