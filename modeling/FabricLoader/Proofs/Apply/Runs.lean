import FabricLoader.Proofs.Apply.Bulk

/-! Images applied one after another to the same sink, whatever became of those before. -/
namespace FabricLoader

namespace Action
variable {ε σ α β γ : Type}

theorem mapM_cons_apply (f : α → Action ε σ β) (a : α) (as : List α) (s : σ) :
    (a :: as).mapM f s =
      let first := f a s
      let later := as.mapM f first.state
      ⟨first.value :: later.value, later.state, first.events ++ later.events⟩ := by
  simp

/-- Actions that yield something more do not differ from the plain ones along a list either. -/
theorem mapM_forget {more : α → Action ε σ (β × γ)} {plain : α → Action ε σ β}
    (same : ∀ a s, (more a s).value.1 = (plain a s).value ∧ (more a s).state = (plain a s).state)
    (as : List α) (s : σ) :
    (as.mapM more s).value.map Prod.fst = (as.mapM plain s).value ∧
    (as.mapM more s).state = (as.mapM plain s).state := by
  induction as generalizing s with
  | nil => exact ⟨rfl, rfl⟩
  | cons a rest ih =>
    obtain ⟨value, state⟩ := same a s
    obtain ⟨values, ends⟩ := ih (plain a s).state
    simp only [mapM_cons_apply, List.map_cons, value, state, values, ends, and_self]

end Action

namespace Applier

section Counts
variable {applier : Applier} {image : Image} {σ : Type} [RegisterSink σ] {cancel : Nat → σ → Bool}
  {sink : σ} {value : Except ApplyError ApplyReport} {made : List (SinkCall × Except WriteError Unit)}

/-- How many calls a run made, told from its end. -/
def callsMade : Except ApplyError ApplyReport → Nat
  | .ok report => report.entries + report.control.toNat
  | .error (.entryWrite index _) => index + 1
  | .error (.controlWrite entries _) => entries + 1
  | .error (.cancelled completed) => completed

/-- The entries that were accepted, one that was refused, and the control word if it was tried. -/
def callsTallied (made : List (SinkCall × Except WriteError Unit)) : Nat :=
  entriesAccepted made + (made.any fun (call, answer) => call.isEntry && !answer.isOk).toNat +
    (made.any fun (call, _) => !call.isEntry).toNat

theorem call_of_calls {i : Nat} {call : SinkCall} (found : (applier.calls image)[i]? = some call) :
    i < image.size ∧ (∃ e, call = Entry.call e) ∨
    i = image.size ∧ ∃ word, image.control = some word ∧
      call = .control applier.controlAddress word := by
  have inside := (List.getElem?_eq_some_iff.mp found).1
  by_cases entry : i < image.size
  · rw [calls, List.getElem?_append_left (by simpa [Image.size] using entry), List.getElem?_map] at found
    obtain ⟨e, _, rfl⟩ := Option.map_eq_some_iff.mp found
    exact .inl ⟨entry, e, rfl⟩
  · obtain ⟨rfl, some⟩ := control_of_calls (Nat.le_of_not_lt entry) inside
    obtain ⟨word, control⟩ := Option.isSome_iff_exists.mp some
    rw [getElem?_calls_size control] at found
    exact .inr ⟨rfl, word, control, (Option.some.inj found).symm⟩

/-- The calls of a run are entries that were accepted, and then one more or none: an entry that was
refused, or the control word. -/
theorem Ends.last (ends : applier.Ends image cancel sink value made) :
    ∃ i ≤ image.size, ∃ last, made = SinkCall.accepted ((applier.calls image).take i) ++ last ∧
      (last = [] ∧ callsMade value = i ∨ callsMade value = i + 1 ∧
        ((∃ e cause, last = [(Entry.call e, .error cause)]) ∨
          ∃ word answer, last = [(.control applier.controlAddress word, answer)])) := by
  obtain ⟨i, _, _, ⟨rfl, rfl, rfl⟩ | ⟨inside, _, rfl, rfl⟩ | ⟨call, cause, found, _, rfl, rfl⟩⟩ := ends
  · refine ⟨image.size, Nat.le_refl _, ?_⟩
    rw [applier.take_size_calls image]
    cases control : image.control with
    | none => exact ⟨[], by simp [calls_of_none control], .inl ⟨rfl, rfl⟩⟩
    | some word =>
      refine ⟨_, ?_, .inr ⟨rfl, .inr ⟨word, .ok (), rfl⟩⟩⟩
      rw [calls_of_some control, SinkCall.accepted_append]
      rfl
  · have most := applier.length_calls_le image
    exact ⟨i, by omega, [], (List.append_nil _).symm, .inl ⟨rfl, rfl⟩⟩
  · rcases call_of_calls found with ⟨entry, e, rfl⟩ | ⟨rfl, word, _, rfl⟩
    · refine ⟨i, Nat.le_of_lt entry, _, rfl, .inr ⟨?_, .inl ⟨e, cause, rfl⟩⟩⟩
      rw [if_pos entry, callsMade]
    · refine ⟨image.size, Nat.le_refl _, _, rfl, .inr ⟨?_, .inr ⟨word, .error cause, rfl⟩⟩⟩
      rw [if_neg (Nat.lt_irrefl _), callsMade]

theorem callsTallied_take {i : Nat} (bound : i ≤ image.size)
    (last : List (SinkCall × Except WriteError Unit)) :
    callsTallied (SinkCall.accepted ((applier.calls image).take i) ++ last) = i + callsTallied last := by
  have accepted := applier.entry_of_take_calls image bound
  have unrefused : (SinkCall.accepted ((applier.calls image).take i)).any
      (fun (call, answer) => call.isEntry && !answer.isOk) = false :=
    List.any_eq_false.mpr fun made member => by simp [(accepted made member).2]
  have uncontrolled : (SinkCall.accepted ((applier.calls image).take i)).any
      (fun (call, _) => !call.isEntry) = false :=
    List.any_eq_false.mpr fun made member => by simp [(accepted made member).1]
  simp only [callsTallied, entriesAccepted, List.countP_append, applier.countP_take_calls image bound,
    List.any_append, unrefused, uncontrolled, Bool.false_or, Nat.add_assoc]

theorem Ends.counts (ends : applier.Ends image cancel sink value made) :
    made.length = callsMade value ∧ callsTallied made = callsMade value := by
  obtain ⟨i, bound, last, rfl, further⟩ := ends.last
  rw [callsTallied_take bound, List.length_append, applier.length_take_calls image bound]
  rcases further with ⟨rfl, count⟩ | ⟨count, ⟨e, cause, rfl⟩ | ⟨word, answer, rfl⟩⟩
  · exact ⟨count.symm, count.symm⟩
  · exact ⟨count.symm, count.symm⟩
  · refine ⟨count.symm, ?_⟩
    cases answer <;> exact count.symm

end Counts

structure Run (σ : Type) where
  applier : Applier
  image : Image
  cancel : Nat → σ → Bool

namespace Run
variable {ρ σ τ : Type} [RegisterSink σ] [RegisterSink τ]

def through (view : τ → σ) (run : Run σ) : Run τ :=
  ⟨run.applier, run.image, fun index sink => run.cancel index (view sink)⟩

def perform (run : Run σ) : Action Event σ (Except ApplyError ApplyReport) :=
  run.applier.applyUntil run.cancel run.image

def watch (run : Run σ) : Action Event σ (Except ApplyError ApplyReport × Observed σ) :=
  (run.through Observed.inner).perform.around (fun sink => ⟨sink, []⟩) Observed.inner

def performAll (runs : List (Run σ)) : Action Event σ (List (Except ApplyError ApplyReport)) :=
  runs.mapM perform

def watchAll (runs : List (Run σ)) :
    Action Event σ (List (Except ApplyError ApplyReport × Observed σ)) :=
  runs.mapM watch

theorem performAll_cons (run : Run σ) (runs : List (Run σ)) (sink : σ) :
    performAll (run :: runs) sink =
      let first := run.perform sink
      let later := performAll runs first.state
      ⟨first.value :: later.value, later.state, first.events ++ later.events⟩ :=
  Action.mapM_cons_apply perform run runs sink

theorem watchAll_cons (run : Run σ) (runs : List (Run σ)) (sink : σ) :
    watchAll (run :: runs) sink =
      let first := run.watch sink
      let later := watchAll runs first.state
      ⟨first.value :: later.value, later.state, first.events ++ later.events⟩ :=
  Action.mapM_cons_apply watch run runs sink

section Alike
variable {related : σ → τ → Prop} (view : σ → ρ) (viewToo : τ → ρ) {s : σ} {t : τ}

theorem perform_alike (alike : SinkCall.Alike related)
    (views : ∀ s t, related s t → view s = viewToo t) (run : Run ρ) (start : related s t) :
    ((run.through view).perform s).value = ((run.through viewToo).perform t).value ∧
    related ((run.through view).perform s).state ((run.through viewToo).perform t).state := by
  refine applyUntil_alike alike (fun index s t near => ?_) run.applier run.image start
  exact congrArg (run.cancel index) (views s t near)

/-- Runs on related sinks, under flags that see the same in both, end alike one by one. -/
theorem performAll_alike (alike : SinkCall.Alike related)
    (views : ∀ s t, related s t → view s = viewToo t) (runs : List (Run ρ)) (start : related s t) :
    (performAll (runs.map (through view)) s).value =
      (performAll (runs.map (through viewToo)) t).value ∧
    related (performAll (runs.map (through view)) s).state
      (performAll (runs.map (through viewToo)) t).state := by
  induction runs generalizing s t with
  | nil => exact ⟨rfl, start⟩
  | cons run rest ih =>
    -- a run that fails goes on to the next as well, so only the relation is carried along
    obtain ⟨value, near⟩ := perform_alike view viewToo alike views run start
    obtain ⟨values, ends⟩ := ih near
    simp only [List.map_cons, performAll_cons, value, values]
    exact ⟨trivial, ends⟩

end Alike

theorem watch_perform (run : Run σ) (sink : σ) :
    (run.watch sink).value.1 = (run.perform sink).value ∧
    (run.watch sink).state = (run.perform sink).state :=
  perform_alike Observed.inner id Observed.alike_inner (fun _ _ same => same) run rfl

theorem watchAll_performAll (runs : List (Run σ)) (sink : σ) :
    (watchAll runs sink).value.map Prod.fst = (performAll runs sink).value ∧
    (watchAll runs sink).state = (performAll runs sink).state :=
  Action.mapM_forget watch_perform runs sink

theorem watch_counts (run : Run σ) (sink : σ) :
    (run.watch sink).value.2.calls.length = callsMade (run.watch sink).value.1 ∧
    callsTallied (run.watch sink).value.2.calls = callsMade (run.watch sink).value.1 :=
  (applyUntil_observed run.applier run.image run.cancel sink).counts

theorem watchAll_counts (runs : List (Run σ)) (sink : σ) :
    ∀ watched ∈ (watchAll runs sink).value, watched.2.calls.length = callsMade watched.1 ∧
      callsTallied watched.2.calls = callsMade watched.1 := by
  induction runs generalizing sink with
  | nil => exact fun watched member => absurd member List.not_mem_nil
  | cons run rest ih =>
    intro watched member
    rw [watchAll_cons] at member
    rcases List.mem_cons.mp member with rfl | later
    · exact run.watch_counts sink
    · exact ih _ watched later

end Run
end Applier
end FabricLoader
