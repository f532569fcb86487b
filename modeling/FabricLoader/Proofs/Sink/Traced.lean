import Mathlib.Algebra.GroupWithZero.Nat
import FabricLoader.Proofs.Apply.Runs
import FabricLoader.Sink.Lent
import FabricLoader.Sink.Traced

/-! A sink that traces leaves no mark on what it traces. Every run ends as it does on the inner sink,
whether that is held or on loan; all that is new is the count, which goes up by one for each call
that a run makes. -/
namespace FabricLoader

namespace Lent
variable {σ : Type} [RegisterSink σ]

theorem alike_sink : SinkCall.Alike fun (lent : Lent σ) sink => lent = ⟨sink⟩ := by
  rintro call _ sink rfl
  cases call with
  | entry address value => exact ⟨rfl, rfl⟩
  | control address value => exact ⟨rfl, rfl⟩

end Lent

namespace Traced
variable {σ : Type} [RegisterSink σ]

/-- Both sinks have seen the same calls, which one of them counts and the other keeps. -/
theorem alike_observed (name : String) (count : Nat) :
    SinkCall.Alike fun (traced : Traced σ) (observed : Observed σ) =>
      traced = ⟨observed.inner, name, count + observed.calls.length⟩ := by
  rintro call _ observed rfl
  have longer (answer : Except WriteError Unit) :
      count + observed.calls.length + 1 = count + (observed.calls ++ [(call, answer)]).length := by
    rw [List.length_append, List.length_singleton, Nat.add_assoc]
  cases call with
  | entry address value => exact ⟨rfl, congrArg (Traced.mk _ name) (longer _)⟩
  | control address value => exact ⟨rfl, congrArg (Traced.mk _ name) (longer _)⟩

theorem alike_lent : SinkCall.Alike fun (lent : Traced (Lent σ)) (traced : Traced σ) =>
    lent = ⟨⟨traced.inner⟩, traced.name, traced.count⟩ := by
  rintro call _ traced rfl
  cases call with
  | entry address value => exact ⟨rfl, rfl⟩
  | control address value => exact ⟨rfl, rfl⟩

end Traced

namespace Applier.Run
variable {σ : Type} [RegisterSink σ]

theorem perform_watch (run : Run σ) (name : String) (count : Nat) (sink : σ) :
    let traced := (run.through Traced.inner).perform ⟨sink, name, count⟩
    let watched := run.watch sink
    traced.value = watched.value.1 ∧
    traced.state = ⟨watched.state, name, count + watched.value.2.calls.length⟩ :=
  perform_alike Traced.inner Observed.inner (Traced.alike_observed name count)
    (by rintro _ observed rfl; rfl) run rfl

theorem performAll_watchAll (runs : List (Run σ)) (name : String) (count : Nat) (sink : σ) :
    let traced := performAll (runs.map (through Traced.inner)) ⟨sink, name, count⟩
    let watched := watchAll runs sink
    traced.value = watched.value.map Prod.fst ∧
    traced.state = ⟨watched.state, name,
      count + (watched.value.map fun run => run.2.calls.length).sum⟩ := by
  induction runs generalizing count sink with
  | nil => exact ⟨rfl, rfl⟩
  | cons run rest ih =>
    obtain ⟨value, state⟩ := perform_watch run name count sink
    obtain ⟨values, ends⟩ := ih (count + (run.watch sink).value.2.calls.length) (run.watch sink).state
    simp only [List.map_cons, performAll_cons, watchAll_cons, List.sum_cons, value, state, values,
      ends, Nat.add_assoc, and_self]

/-- Any row of runs over any sink, whatever flags may cancel them: through a sink that traces, each
ends as it does on the inner sink, and the inner sink ends in the same state; so it is with a sink
on loan, and with a sink on loan that is traced. The count is that of all calls made of the inner
sink, which are in each run the entries accepted, one more if an entry was refused, and one more if
the control word was tried. -/
theorem performAll_traced (runs : List (Run σ)) (name : String) (sink : σ) :
    let direct := performAll runs sink
    let watched := watchAll runs sink
    let calls := (watched.value.map fun run => run.2.calls.length).sum
    let lent := performAll (runs.map (through Lent.sink)) ⟨sink⟩
    let traced := performAll (runs.map (through Traced.inner)) ⟨sink, name, 0⟩
    let tracedLent := performAll (runs.map (through fun traced : Traced (Lent σ) => traced.inner.sink))
      ⟨⟨sink⟩, name, 0⟩
    (lent.value = direct.value ∧ lent.state = ⟨direct.state⟩) ∧
    (traced.value = direct.value ∧ traced.state = ⟨direct.state, name, calls⟩) ∧
    (tracedLent.value = direct.value ∧ tracedLent.state = ⟨⟨direct.state⟩, name, calls⟩) ∧
    (watched.value.map Prod.fst = direct.value ∧ watched.state = direct.state) ∧
    ∀ run ∈ watched.value, run.2.calls.length = callsTallied run.2.calls ∧
      run.2.calls.length = callsMade run.1 := by
  intro direct watched calls lent traced tracedLent
  obtain ⟨watchedValues, watchedState⟩ : watched.value.map Prod.fst = direct.value ∧
      watched.state = direct.state := watchAll_performAll runs sink
  obtain ⟨values, state⟩ : traced.value = watched.value.map Prod.fst ∧
      traced.state = ⟨watched.state, name, 0 + calls⟩ := performAll_watchAll runs name 0 sink
  rw [watchedValues] at values
  rw [watchedState, Nat.zero_add] at state
  have unchanged : runs.map (through id) = runs := List.map_id runs
  have onLoan : lent.value = direct.value ∧ lent.state = ⟨direct.state⟩ := by
    have ends := performAll_alike Lent.sink id Lent.alike_sink (by rintro _ sink rfl; rfl) runs
      (rfl : (⟨sink⟩ : Lent σ) = ⟨sink⟩)
    rwa [unchanged] at ends
  obtain ⟨lentValues, lentState⟩ : tracedLent.value = traced.value ∧
      tracedLent.state = ⟨⟨traced.state.inner⟩, traced.state.name, traced.state.count⟩ :=
    performAll_alike _ Traced.inner Traced.alike_lent (by rintro _ traced rfl; rfl) runs rfl
  rw [state] at lentState
  refine ⟨onLoan, ⟨values, state⟩, ⟨lentValues.trans values, lentState⟩,
    ⟨watchedValues, watchedState⟩, fun run member => ?_⟩
  obtain ⟨length, tallied⟩ := watchAll_counts runs sink run member
  exact ⟨length.trans tallied.symm, length⟩

end Applier.Run
end FabricLoader
