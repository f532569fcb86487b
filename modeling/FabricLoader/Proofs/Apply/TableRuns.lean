import FabricLoader.Proofs.Apply.Runs

/-! Tables applied one after another to the same sink, in any of the ways there are. A table that
fails the check makes no call of the sink; any other makes the calls of its image. -/
namespace FabricLoader

namespace SinkCall
variable {σ : Type} [RegisterSink σ]

/-- Calls made of a sink one after another, each with its answer. -/
inductive Made : σ → List (SinkCall × Except WriteError Unit) → σ → Prop
  | nil {s : σ} : Made s [] s
  | cons {call : SinkCall} {s t : σ} {calls : List (SinkCall × Except WriteError Unit)}
      (later : Made (call.make s).state calls t) :
      Made s ((call, (call.make s).value) :: calls) t

variable {s t : σ} {before later : List (SinkCall × Except WriteError Unit)}

theorem made_append_iff : Made s (before ++ later) t ↔ ∃ middle, Made s before middle ∧
    Made middle later t := by
  induction before generalizing s with
  | nil =>
    constructor
    · exact fun made => ⟨s, .nil, made⟩
    · rintro ⟨_, ⟨⟩, made⟩
      exact made
  | cons first before ih =>
    constructor
    · intro made
      cases made with
      | cons rest =>
        obtain ⟨middle, front, back⟩ := ih.mp rest
        exact ⟨middle, .cons front, back⟩
    · rintro ⟨middle, made, back⟩
      cases made with
      | cons front => exact .cons (ih.mpr ⟨middle, front, back⟩)

theorem Made.concat (made : Made s before t) (call : SinkCall) :
    Made s (before ++ [(call, (call.make t).value)]) (call.make t).state :=
  made_append_iff.mpr ⟨t, made, .cons .nil⟩

end SinkCall

namespace Observed
variable {σ : Type} [RegisterSink σ]

/-- The calls that are kept lead from the first state of the inner sink to its present one. -/
theorem alike_made (sink : σ) : SinkCall.Alike fun (observed : Observed σ) reached =>
    observed.inner = reached ∧ SinkCall.Made sink observed.calls reached := by
  rintro call observed _ ⟨rfl, made⟩
  cases call with
  | entry address value => exact ⟨rfl, rfl, made.concat _⟩
  | control address value => exact ⟨rfl, rfl, made.concat _⟩

end Observed

namespace Applier

theorem Run.watch_made {σ : Type} [RegisterSink σ] (run : Run σ) (sink : σ) :
    SinkCall.Made sink (run.watch sink).value.2.calls (run.watch sink).state := by
  obtain ⟨_, inner, made⟩ := perform_alike Observed.inner id (Observed.alike_made sink)
    (fun _ _ related => related.1) run (s := ⟨sink, []⟩) ⟨rfl, .nil⟩
  rwa [← inner] at made

inductive Way (σ : Type) where
  /-- The check and the image in one. -/
  | whole
  /-- The image after a check of its own. -/
  | image
  /-- The image, until a flag is seen raised. -/
  | imageUntil (cancel : Nat → σ → Bool)

structure TableRun (σ : Type) where
  applier : Applier
  checker : Checker
  table : Table
  way : Way σ

namespace Way
variable {σ τ : Type}

def through (view : τ → σ) : Way σ → Way τ
  | whole => whole
  | image => image
  | imageUntil cancel => imageUntil fun index sink => cancel index (view sink)

def flag : Way σ → Nat → σ → Bool
  | whole | image => fun _ _ => false
  | imageUntil cancel => cancel

theorem flag_through (view : τ → σ) (way : Way σ) :
    (way.through view).flag = fun index sink => way.flag index (view sink) := by
  cases way <;> rfl

end Way

namespace TableRun
variable {σ τ : Type} [RegisterSink σ] [RegisterSink τ]

def through (view : τ → σ) (run : TableRun σ) : TableRun τ :=
  ⟨run.applier, run.checker, run.table, run.way.through view⟩

def checked (run : TableRun σ) (apply : Image → Action Event σ (Except ApplyError ApplyReport)) :
    Action Event σ (Except TableFailure ApplyReport) := do
  match run.checker.checkTable run.table with
  | .error cause => return .error (.image cause)
  | .ok image =>
    Action.emit (.line image.checkedLine)
    return (← apply image).mapError .apply

def perform (run : TableRun σ) : Action Event σ (Except TableFailure ApplyReport) :=
  match run.way with
  | .whole => run.applier.applyTable run.checker run.table
  | .image => run.checked run.applier.apply
  | .imageUntil cancel => run.checked (run.applier.applyUntil cancel)

def ofImage (run : TableRun σ) (image : Image) : Run σ := ⟨run.applier, image, run.way.flag⟩

def watch (run : TableRun σ) : Action Event σ (Except TableFailure ApplyReport × Observed σ) :=
  (run.through Observed.inner).perform.around (fun sink => ⟨sink, []⟩) Observed.inner

def performAll (runs : List (TableRun σ)) :
    Action Event σ (List (Except TableFailure ApplyReport)) :=
  runs.mapM perform

def watchAll (runs : List (TableRun σ)) :
    Action Event σ (List (Except TableFailure ApplyReport × Observed σ)) :=
  runs.mapM watch

theorem perform_apply (run : TableRun σ) (sink : σ) :
    run.perform sink = match run.checker.checkTable run.table with
      | .error cause => ⟨.error (.image cause), sink, []⟩
      | .ok image =>
        let applied := (run.ofImage image).perform sink
        ⟨applied.value.mapError .apply, applied.state, .line image.checkedLine :: applied.events⟩ := by
  obtain ⟨applier, checker, table, way⟩ := run
  cases way with
  | whole => exact applyTable_apply applier checker table sink
  | image | imageUntil cancel =>
    simp only [perform, checked]
    cases checker.checkTable table with
    | error cause => rfl
    | ok image => simp [Run.perform, ofImage, Way.flag, Applier.apply]

variable {run : TableRun σ} {image : Image} {cause : ImageError}

theorem watch_unchecked (fails : run.checker.checkTable run.table = .error cause) (sink : σ) :
    run.watch sink = ⟨(.error (.image cause), ⟨sink, []⟩), sink, []⟩ := by
  have failed : (run.through Observed.inner).checker.checkTable
      (run.through Observed.inner).table = .error cause := fails
  simp [watch, perform_apply, failed]

theorem watch_checked (passes : run.checker.checkTable run.table = .ok image) (sink : σ) :
    let watched := (run.ofImage image).watch sink
    (run.watch sink).value = (watched.value.1.mapError .apply, watched.value.2) ∧
      (run.watch sink).state = watched.state := by
  have passed : (run.through Observed.inner).checker.checkTable
      (run.through Observed.inner).table = .ok image := passes
  have flag : (run.through Observed.inner).ofImage image =
      (run.ofImage image).through Observed.inner := by
    rw [ofImage, through, Way.flag_through]
    rfl
  simp [watch, perform_apply, passed, flag, Run.watch]

theorem watch_perform (run : TableRun σ) (sink : σ) :
    (run.watch sink).value.1 = (run.perform sink).value ∧
    (run.watch sink).state = (run.perform sink).state := by
  rw [perform_apply]
  cases check : run.checker.checkTable run.table with
  | error cause =>
    rw [watch_unchecked check]
    exact ⟨rfl, rfl⟩
  | ok image =>
    obtain ⟨value, state⟩ := watch_checked check sink
    obtain ⟨same, reached⟩ := (run.ofImage image).watch_perform sink
    rw [value, state]
    exact ⟨congrArg (Except.mapError TableFailure.apply) same, reached⟩

theorem performAll_cons (run : TableRun σ) (runs : List (TableRun σ)) (sink : σ) :
    performAll (run :: runs) sink =
      let first := run.perform sink
      let later := performAll runs first.state
      ⟨first.value :: later.value, later.state, first.events ++ later.events⟩ :=
  Action.mapM_cons_apply perform run runs sink

theorem watchAll_cons (run : TableRun σ) (runs : List (TableRun σ)) (sink : σ) :
    watchAll (run :: runs) sink =
      let first := run.watch sink
      let later := watchAll runs first.state
      ⟨first.value :: later.value, later.state, first.events ++ later.events⟩ :=
  Action.mapM_cons_apply watch run runs sink

theorem watchAll_performAll (runs : List (TableRun σ)) (sink : σ) :
    (watchAll runs sink).value.map Prod.fst = (performAll runs sink).value ∧
    (watchAll runs sink).state = (performAll runs sink).state :=
  Action.mapM_forget watch_perform runs sink

end TableRun
end Applier
end FabricLoader
