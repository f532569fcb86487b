import FabricLoader.Loader.Basic
import FabricLoader.Proofs.Apply.Simulation
import FabricLoader.Proofs.Table.Loaded

/-! Names are for the reader. The name of an image goes into log lines and failures alone, so loads of
one image under two names leave the same bus, and end with the same report unless both fail. -/
namespace FabricLoader

namespace Action
variable {σ α β : Type} {related : α → β → Prop}

/-- From any state two actions lead to the same one, with related values. -/
def Agree (related : α → β → Prop) (one : Action Event σ α) (other : Action Event σ β) : Prop :=
  ∀ s, related (one s).value (other s).value ∧ (one s).state = (other s).state

theorem Agree.refl (action : Action Event σ α) : Agree Eq action action := fun _ => ⟨rfl, rfl⟩

theorem agree_pure {a : α} {b : β} (values : related a b) :
    Agree related (pure a : Action Event σ α) (pure b) := fun _ => ⟨values, rfl⟩

theorem agree_log (level : Level) (one other : String) :
    Agree Eq (log level one : Action Event σ Unit) (log level other) := fun _ => ⟨rfl, rfl⟩

theorem Agree.bind {γ ζ : Type} {then' : γ → ζ → Prop} {one : Action Event σ α}
    {other : Action Event σ β} {next : α → Action Event σ γ} {nextOther : β → Action Event σ ζ}
    (first : Agree related one other)
    (rest : ∀ a b, related a b → Agree then' (next a) (nextOther b)) :
    Agree then' (one >>= next) (other >>= nextOther) := by
  intro s
  obtain ⟨values, states⟩ := first s
  simp only [bind_apply, states]
  exact rest _ _ values _

end Action

namespace Traced
variable {σ : Type} [RegisterSink σ]

def Renamed (s t : Traced σ) : Prop := s.inner = t.inner ∧ s.count = t.count

theorem alike_renamed : SinkCall.Alike (Renamed (σ := σ)) := by
  rintro call ⟨inner, name, count⟩ ⟨_, other, _⟩ ⟨rfl, rfl⟩
  cases call with
  | entry address value => exact ⟨rfl, rfl, rfl⟩
  | control address value => exact ⟨rfl, rfl, rfl⟩

end Traced

/-- Both succeeded with the same result, or both failed. -/
def SameSuccess {ε ζ α : Type} (one : Except ε α) (other : Except ζ α) : Prop :=
  one.toOption = other.toOption

theorem sameSuccess_iff {ε ζ α : Type} {one : Except ε α} {other : Except ζ α} :
    SameSuccess one other ↔ (∃ e f, one = .error e ∧ other = .error f) ∨
      ∃ a, one = .ok a ∧ other = .ok a := by
  cases one <;> cases other <;> simp [SameSuccess, Except.toOption, eq_comm]

namespace Loader
variable {δ : Type} [Peripheral δ] (loader : Loader) (name other : String) (image : Image)
  (applier : Applier)

theorem agree_attempt (number : Nat) :
    Action.Agree Eq (loader.attempt (δ := δ) name image applier number)
      (loader.attempt other image applier number) := by
  have applied : Action.Agree (fun a b => a.1 = b.1)
      ((applier.apply image).around (fun bus : SessionBus δ => loader.tracedSink name bus)
        fun sink => sink.inner.bus)
      ((applier.apply image).around (fun bus => loader.tracedSink other bus)
        fun sink => sink.inner.bus) := by
    intro bus
    have start : Traced.Renamed (loader.tracedSink name bus) (loader.tracedSink other bus) := ⟨rfl, rfl⟩
    obtain ⟨values, inner, _⟩ := Applier.apply_alike Traced.alike_renamed applier image start
    exact ⟨values, congrArg HostSink.bus inner⟩
  refine applied.bind fun a b same => (Action.agree_log _ _ _).bind fun _ _ _ => ?_
  exact Action.agree_pure same

/-- Attempts from one attempt on agree if those after it do. -/
private theorem agree_attempts_of {number left : Nat} (later : ∀ fewer, left = fewer + 1 →
      Action.Agree SameSuccess (loader.attempts (δ := δ) name image applier (number + 1) fewer)
        (loader.attempts other image applier (number + 1) fewer)) :
    Action.Agree SameSuccess (loader.attempts (δ := δ) name image applier number left)
      (loader.attempts other image applier number left) := by
  rw [attempts, attempts]
  refine (Action.Agree.refl _).bind fun _ _ _ => (Action.Agree.refl _).bind fun held _ same => ?_
  subst same
  cases held with
  | error cause => exact Action.agree_pure rfl
  | ok =>
    refine (loader.agree_attempt name other image applier number).bind fun result _ same => ?_
    subst same
    cases result with
    | ok report => exact (Action.agree_log _ _ _).bind fun _ _ _ => Action.agree_pure rfl
    | error e =>
      cases e with
      | entryWrite index cause =>
        -- whether another attempt follows depends on how many are left, not on the name
        cases left with
        | zero => exact Action.agree_pure rfl
        | succ fewer => exact (Action.agree_log _ _ _).bind fun _ _ _ => later fewer rfl
      | controlWrite | cancelled => exact Action.agree_pure rfl

theorem agree_attempts (number left : Nat) :
    Action.Agree SameSuccess (loader.attempts (δ := δ) name image applier number left)
      (loader.attempts other image applier number left) := by
  induction left generalizing number with
  | zero => exact loader.agree_attempts_of name other image applier nofun
  | succ left ih =>
    refine loader.agree_attempts_of name other image applier ?_
    rintro fewer ⟨⟩
    exact ih _

theorem agree_verify : Action.Agree SameSuccess (loader.verify (δ := δ) name image)
    (loader.verify other image) := by
  refine (Action.Agree.refl _).bind fun address _ same => ?_
  subst same
  refine (Action.Agree.refl _).bind fun value _ same => ?_
  subst same
  split
  · exact (Action.agree_log _ _ _).bind fun _ _ _ => Action.agree_pure rfl
  · exact Action.agree_pure rfl

theorem agree_install (request : ImageRequest) :
    Action.Agree SameSuccess (loader.install (δ := δ) name image request)
      (loader.install other image request) := by
  refine (loader.agree_attempts name other image _ _ _).bind fun one two same => ?_
  rcases sameSuccess_iff.mp same with ⟨_, _, rfl, rfl⟩ | ⟨report, rfl, rfl⟩
  · exact Action.agree_pure rfl
  · dsimp only
    split
    · refine (loader.agree_verify name other image).bind fun one two same => Action.agree_pure ?_
      rcases sameSuccess_iff.mp same with ⟨_, _, rfl, rfl⟩ | ⟨_, rfl, rfl⟩
      · rfl
      · rfl
    · exact Action.agree_pure rfl

/-- Two files whose tables have one container are loaded alike. -/
theorem load_alike {store storeOther : FileStore} {file fileOther : String} {table tableOther : Table}
    (read : ((Table.load file).run store).value = .ok table)
    (readOther : ((Table.load fileOther).run storeOther).value = .ok tableOther)
    (same : tableOther.contained table.name = table.contained table.name)
    (request : ImageRequest) (bus : SessionBus δ) :
    let one := (loader.load { request with file } bus).run store
    let other := (loader.load { request with file := fileOther } bus).run storeOther
    SameSuccess one.value.1 other.value.1 ∧ one.value.2 = other.value.2 := by
  have checked : loader.checker.checkTable
        { tableOther with control := tableOther.control <|> request.control } =
      loader.checker.checkTable { table with control := table.control <|> request.control } := by
    have kept := congrArg (fun t : Table =>
      loader.checker.checkTable { t with control := t.control <|> request.control }) same
    exact kept
  simp only [load, Job.run_bind, read, readOther, checked]
  cases loader.checker.checkTable { table with control := table.control <|> request.control } with
  | error cause => exact ⟨rfl, rfl⟩
  | ok image =>
    simp only [Job.run_bind, Job.run_perform]
    exact loader.agree_install table.name tableOther.name image _ bus

end Loader
end FabricLoader
