import FabricLoader.Event

/-! Actions on a state: state transformers that also leave events behind. An action is a function,
so its value, its final state and its events can be stated apart; sequencing passes the state on
and joins the events. -/
namespace FabricLoader

structure Outcome (ε σ α : Type) where
  value : α
  state : σ
  events : List ε

/-- A transformer of a state `σ` that yields an `α` and leaves events `ε`. -/
def Action (ε σ α : Type) : Type := σ → Outcome ε σ α

namespace Action
variable {ε ζ σ τ α β : Type}

protected def pure (a : α) : Action ε σ α := fun s => ⟨a, s, []⟩

protected def bind (first : Action ε σ α) (next : α → Action ε σ β) : Action ε σ β := fun s =>
  let a := first s
  let b := next a.value a.state
  ⟨b.value, b.state, a.events ++ b.events⟩

instance : Monad (Action ε σ) where
  pure := Action.pure
  bind := Action.bind

instance : LawfulMonad (Action ε σ) := LawfulMonad.mk' _
  (fun action => by funext s; simp [Functor.map, Action.bind, Action.pure])
  (fun a next => by funext s; simp [pure, bind, Action.bind, Action.pure])
  (fun action next last => by funext s; simp [bind, Action.bind])

def state : Action ε σ σ := fun s => ⟨s, s, []⟩

def update (f : σ → σ) : Action ε σ Unit := fun s => ⟨(), f s, []⟩

def emit (event : ε) : Action ε σ Unit := fun s => ⟨(), s, [event]⟩

def mapEvents (f : ε → ζ) (action : Action ε σ α) : Action ζ σ α := fun s =>
  let a := action s
  ⟨a.value, a.state, a.events.map f⟩

def onPart (get : τ → σ) (set : σ → τ → τ) (action : Action ε σ α) : Action ε τ α := fun t =>
  let a := action (get t)
  ⟨a.value, set a.state t, a.events⟩

/-- An action on something built around the state, out of which the state is taken back at the end.
What was built is a value as well. -/
def around (build : σ → τ) (restore : τ → σ) (action : Action ε τ α) : Action ε σ (α × τ) := fun s =>
  let a := action (build s)
  ⟨(a.value, a.state), restore a.state, a.events⟩

def each (action : Action ε σ Unit) : Action ε (List σ) Unit
  | [] => ⟨(), [], []⟩
  | s :: rest =>
    let a := action s
    let b := each action rest
    ⟨(), a.state :: b.state, a.events ++ b.events⟩

@[simp] theorem pure_apply (a : α) (s : σ) : (pure a : Action ε σ α) s = ⟨a, s, []⟩ := rfl

@[simp] theorem bind_apply (first : Action ε σ α) (next : α → Action ε σ β) (s : σ) :
    (first >>= next) s = ⟨(next (first s).value (first s).state).value,
      (next (first s).value (first s).state).state,
      (first s).events ++ (next (first s).value (first s).state).events⟩ := rfl

@[simp] theorem map_apply (f : α → β) (action : Action ε σ α) (s : σ) :
    (f <$> action) s = ⟨f (action s).value, (action s).state, (action s).events⟩ := by
  rw [← bind_pure_comp, bind_apply]
  simp

@[simp] theorem state_apply (s : σ) : (state : Action ε σ σ) s = ⟨s, s, []⟩ := rfl

@[simp] theorem update_apply (f : σ → σ) (s : σ) :
    (update f : Action ε σ Unit) s = ⟨(), f s, []⟩ := rfl

@[simp] theorem emit_apply (event : ε) (s : σ) :
    (emit event : Action ε σ Unit) s = ⟨(), s, [event]⟩ := rfl

@[simp] theorem mapEvents_apply (f : ε → ζ) (action : Action ε σ α) (s : σ) :
    action.mapEvents f s = ⟨(action s).value, (action s).state, (action s).events.map f⟩ := rfl

@[simp] theorem onPart_apply (get : τ → σ) (set : σ → τ → τ) (action : Action ε σ α) (t : τ) :
    action.onPart get set t =
      ⟨(action (get t)).value, set (action (get t)).state t, (action (get t)).events⟩ := rfl

@[simp] theorem around_apply (build : σ → τ) (restore : τ → σ) (action : Action ε τ α) (s : σ) :
    action.around build restore s =
      ⟨((action (build s)).value, (action (build s)).state), restore (action (build s)).state,
        (action (build s)).events⟩ := rfl

/-- A log line from inside a device. -/
def note (level : Level) (text : String) : Action LogLine σ Unit := emit ⟨level, text⟩

def log (level : Level) (text : String) : Action Event σ Unit := emit (.line ⟨level, text⟩)

end Action
end FabricLoader
