import FabricLoader.Proofs.Apply.TableRuns
import FabricLoader.Sink.Recording

/-! What a sink that records is left with after any row of runs. It keeps the calls it accepts and
counts the entries it is offered, and of these it refuses the one with its ordinal; the count goes
on from run to run, so at most one run can come upon that entry. -/
namespace FabricLoader

namespace SinkCall
variable {calls before later : List (SinkCall × Except WriteError Unit)}

/-- How many entries are among some calls, accepted or not. -/
def entriesTried (calls : List (SinkCall × Except WriteError Unit)) : Nat :=
  calls.countP fun (call, _) => call.isEntry

def kept : SinkCall → AcceptedWrite
  | entry address value => .entry address value
  | control address value => .control address value

def keptOf (calls : List (SinkCall × Except WriteError Unit)) : List AcceptedWrite :=
  calls.filterMap fun (call, answer) => if answer.isOk then some call.kept else none

@[simp] theorem entriesTried_append (before later : List (SinkCall × Except WriteError Unit)) :
    entriesTried (before ++ later) = entriesTried before + entriesTried later := List.countP_append

@[simp] theorem keptOf_append (before later : List (SinkCall × Except WriteError Unit)) :
    keptOf (before ++ later) = keptOf before ++ keptOf later := List.filterMap_append

theorem keptOf_accepted (calls : List SinkCall) : keptOf (accepted calls) = calls.map kept := by
  induction calls with
  | nil => rfl
  | cons call rest ih => simpa [keptOf, Except.isOk, Except.toBool] using ih

end SinkCall

namespace Recording
open SinkCall (Made entriesTried keptOf)
variable {r t : Recording} {calls before later : List (SinkCall × Except WriteError Unit)}
  {address value : UInt32} {answer : Except WriteError Unit}

def counting (r : Recording) (calls : List (SinkCall × Except WriteError Unit)) : Recording :=
  { r with attempts := r.attempts + entriesTried calls, writes := r.writes ++ keptOf calls }

theorem make_state (call : SinkCall) (r : Recording) :
    (call.make r).state = r.counting [(call, (call.make r).value)] := by
  cases call with
  | entry address value =>
    change (r.entry address value).2 = r.counting [(_, (r.entry address value).1)]
    unfold Recording.entry
    split <;> simp [counting, entriesTried, keptOf, SinkCall.kept, SinkCall.isEntry, Except.isOk,
      Except.toBool]
  | control address value =>
    change (r.control address value).2 = r.counting [(_, (r.control address value).1)]
    unfold Recording.control
    split <;> simp [counting, entriesTried, keptOf, SinkCall.kept, SinkCall.isEntry, Except.isOk,
      Except.toBool]

theorem counting_append (r : Recording) (before later : List (SinkCall × Except WriteError Unit)) :
    r.counting (before ++ later) = (r.counting before).counting later := by
  simp [counting, Nat.add_assoc]

theorem state_of_made (made : Made r calls t) : t = r.counting calls := by
  induction made with
  | nil => simp [counting, entriesTried, keptOf]
  | @cons call s t calls _ ih =>
    rw [ih, make_state, ← counting_append]
    rfl

/-- An entry is refused exactly if its ordinal is the one to refuse. -/
theorem entry_refused_iff (made : Made r (before ++ (.entry address value, answer) :: later) t) :
    (∃ cause, answer = .error cause) ↔ r.failAt = some (r.attempts + entriesTried before) := by
  obtain ⟨middle, front, back⟩ := SinkCall.made_append_iff.mp made
  obtain rfl := state_of_made front
  cases back with
  | cons =>
    change (∃ cause, ((r.counting before).entry address value).1 = .error cause) ↔ _
    unfold Recording.entry
    by_cases due : r.failAt = some (r.attempts + entriesTried before)
    · simp [counting, due]
    · simp [counting, due]

end Recording

namespace Applier
open SinkCall (Made entriesTried keptOf)

section Ended
variable {σ : Type} [RegisterSink σ] {applier : Applier} {image : Image} {cancel : Nat → σ → Bool}
  {sink : σ} {value : Except ApplyError ApplyReport}
  {made : List (SinkCall × Except WriteError Unit)} {i : Nat}

theorem entriesTried_take (bound : i ≤ image.size) :
    entriesTried (SinkCall.accepted ((applier.calls image).take i)) = i := by
  rw [entriesTried, List.countP_eq_length.mpr, applier.length_take_calls image bound]
  intro call member
  exact (applier.entry_of_take_calls image bound call member).1

theorem accepted_take_split (applier : Applier) {j : Nat} (before : j < i) (bound : i ≤ image.size) :
    ∃ e later,
    SinkCall.accepted ((applier.calls image).take i) =
      SinkCall.accepted ((applier.calls image).take j) ++ (Entry.call e, .ok ()) :: later := by
  have within : j < image.entries.length := Nat.lt_of_lt_of_le before bound
  have inside : j < ((image.entries.map Entry.call).take i).length := by
    rw [List.length_take, List.length_map]
    exact Nat.lt_min.mpr ⟨before, within⟩
  have split := List.take_append_drop j ((image.entries.map Entry.call).take i)
  rw [List.take_take, Nat.min_eq_left (Nat.le_of_lt before), List.drop_eq_getElem_cons inside,
    List.getElem_take, List.getElem_map] at split
  have whole := congrArg SinkCall.accepted split
  rw [SinkCall.accepted_append, SinkCall.accepted_cons] at whole
  rw [applier.take_calls image bound, applier.take_calls image (by omega)]
  exact ⟨_, _, whole.symm⟩

/-- The entries that a run tries are accepted up to the last one, and that one is refused if the run
ends so. -/
theorem Ends.tried (ends : applier.Ends image cancel sink value made) : ∃ i ≤ image.size, ∃ last,
    made = SinkCall.accepted ((applier.calls image).take i) ++ last ∧
    (entriesTried last = 0 ∧ (∀ j cause, value ≠ .error (.entryWrite j cause)) ∨
      ∃ e cause, last = [(Entry.call e, .error cause)] ∧ value = .error (.entryWrite i cause)) := by
  obtain ⟨i, _, _, ⟨rfl, rfl, rfl⟩ | ⟨inside, _, rfl, rfl⟩ | ⟨call, cause, found, _, rfl, rfl⟩⟩ := ends
  · refine ⟨image.size, Nat.le_refl _, ?_⟩
    rw [applier.take_size_calls image, calls, SinkCall.accepted_append]
    refine ⟨_, rfl, .inl ⟨?_, fun j other same => by cases same⟩⟩
    cases image.control <;> rfl
  · have most := applier.length_calls_le image
    exact ⟨i, by omega, [], (List.append_nil _).symm,
      .inl ⟨rfl, fun j other same => by cases same⟩⟩
  · rcases call_of_calls found with ⟨entry, e, rfl⟩ | ⟨rfl, word, _, rfl⟩
    · exact ⟨i, Nat.le_of_lt entry, _, rfl, .inr ⟨e, cause, rfl, by rw [if_pos entry]⟩⟩
    · refine ⟨image.size, Nat.le_refl _, _, rfl, .inl ⟨rfl, fun j other same => ?_⟩⟩
      rw [if_neg (Nat.lt_irrefl _)] at same
      cases same

/-- The first entries of an image, and its control word if that is wanted too. -/
def portion (applier : Applier) (image : Image) (entries : Nat) (control : Bool) :
    List AcceptedWrite :=
  (image.entries.take entries).map (fun e => .entry e.address e.value) ++
    if control then [.control applier.controlAddress (image.control.getD 0)] else []

def told (applier : Applier) (image : Image) : Except ApplyError ApplyReport → List AcceptedWrite
  | .ok report => applier.portion image report.entries report.control
  | .error e => applier.portion image e.completed false

theorem kept_take (bound : i ≤ image.size) :
    keptOf (SinkCall.accepted ((applier.calls image).take i)) = applier.portion image i false := by
  rw [SinkCall.keptOf_accepted, applier.take_calls image bound, ← List.map_take, List.map_map, portion,
    if_neg Bool.false_ne_true, List.append_nil]
  rfl

/-- A run tells of all writes that were accepted and of no others. -/
theorem Ends.kept (ends : applier.Ends image cancel sink value made) :
    keptOf made = applier.told image value := by
  have most := applier.length_calls_le image
  obtain ⟨i, _, _, ⟨rfl, rfl, rfl⟩ | ⟨inside, _, rfl, rfl⟩ | ⟨call, cause, found, _, rfl, rfl⟩⟩ := ends
  · rw [SinkCall.keptOf_accepted, calls, List.map_append, List.map_map, told, portion,
      List.take_of_length_le (Nat.le_refl image.size)]
    cases image.control <;> rfl
  · exact kept_take (by omega)
  · have inside := (List.getElem?_eq_some_iff.mp found).1
    rw [SinkCall.keptOf_append, kept_take (by omega)]
    -- the call that was refused leaves nothing, and either failure counts the entries before it
    refine (List.append_nil _).trans ?_
    split
    · rfl
    · rename_i behind
      obtain ⟨rfl, _⟩ := control_of_calls (Nat.le_of_not_lt behind) inside
      rfl

end Ended

namespace Run

theorem watch_ends {σ : Type} [RegisterSink σ] (run : Run σ) (sink : σ) :
    run.applier.Ends run.image run.cancel sink (run.watch sink).value.1
      (run.watch sink).value.2.calls :=
  applyUntil_observed run.applier run.image run.cancel sink

/-- A run on a sink that records ends at an entry if that is the one to refuse. -/
theorem watch_refused_iff (run : Run Recording) (r : Recording) (j : Nat) :
    (∃ cause, (run.watch r).value.1 = .error (.entryWrite j cause)) ↔
      j < entriesTried (run.watch r).value.2.calls ∧ r.failAt = some (r.attempts + j) := by
  have made := run.watch_made r
  obtain ⟨i, bound, last, split, tried⟩ := (run.watch_ends r).tried
  rw [split] at made ⊢
  rw [SinkCall.entriesTried_append, entriesTried_take bound]
  have accepted (j : Nat) (before : j < i) : r.failAt ≠ some (r.attempts + j) := by
    obtain ⟨e, later, cut⟩ := accepted_take_split run.applier before bound
    rw [cut, List.append_assoc] at made
    have answered := Recording.entry_refused_iff made
    rw [entriesTried_take (by omega)] at answered
    exact fun due => nomatch answered.mpr due
  rcases tried with ⟨none, otherwise⟩ | ⟨e, cause, rfl, refused⟩
  · refine ⟨fun ⟨cause, same⟩ => absurd same (otherwise j cause), fun ⟨before, due⟩ => ?_⟩
    rw [none] at before
    exact absurd due (accepted j before)
  · have due := (Recording.entry_refused_iff made).mp ⟨cause, rfl⟩
    rw [entriesTried_take bound] at due
    constructor
    · rintro ⟨_, same⟩
      obtain ⟨rfl, _⟩ := ApplyError.entryWrite.inj (Except.error.inj (refused.symm.trans same))
      exact ⟨Nat.lt_succ_self i, due⟩
    · rintro ⟨_, dueToo⟩
      obtain rfl : i = j := by simpa using due.symm.trans dueToo
      exact ⟨cause, refused⟩

end Run

namespace TableRun

/-- The writes that a run tells of by its end; a table without an image has none to tell of. -/
def told {σ : Type} (run : TableRun σ) (value : Except TableFailure ApplyReport) :
    List AcceptedWrite :=
  match run.checker.checkTable run.table with
  | .error _ => []
  | .ok image =>
    match value with
    | .ok report => run.applier.told image (.ok report)
    | .error (.apply e) => run.applier.told image (.error e)
    | .error (.image _) => []

/-- Of some runs one ended at an entry that was refused. -/
def Refused (values : List (Except TableFailure ApplyReport)) (run index : Nat) : Prop :=
  ∃ cause, values[run]? = some (.error (.apply (.entryWrite index cause)))

/-- The ordinal of the first entry after some runs, where each entry tried before counts. -/
def ordinal (r : Recording) (watched : List (Except TableFailure ApplyReport × Observed Recording))
    (runs : Nat) : Nat :=
  r.attempts + entriesTried ((watched.take runs).flatMap (·.2.calls))

theorem watch_state (run : TableRun Recording) (r : Recording) :
    (run.watch r).state = r.counting (run.watch r).value.2.calls := by
  cases check : run.checker.checkTable run.table with
  | error cause =>
    rw [watch_unchecked check]
    simp [Recording.counting, entriesTried, keptOf]
  | ok image =>
    obtain ⟨value, state⟩ := watch_checked check r
    rw [value, state]
    exact Recording.state_of_made ((run.ofImage image).watch_made r)

theorem watch_kept (run : TableRun Recording) (r : Recording) :
    keptOf (run.watch r).value.2.calls = run.told (run.watch r).value.1 := by
  cases check : run.checker.checkTable run.table with
  | error cause =>
    simp [watch_unchecked check, told, check, keptOf]
  | ok image =>
    rw [(watch_checked check r).1, ((run.ofImage image).watch_ends r).kept]
    simp only [told, check]
    cases ((run.ofImage image).watch r).value.1 <;> rfl

theorem watch_refused_iff (run : TableRun Recording) (r : Recording) (j : Nat) :
    (∃ cause, (run.watch r).value.1 = .error (.apply (.entryWrite j cause))) ↔
      j < entriesTried (run.watch r).value.2.calls ∧ r.failAt = some (r.attempts + j) := by
  cases check : run.checker.checkTable run.table with
  | error cause =>
    rw [watch_unchecked check]
    simp [entriesTried]
  | ok image =>
    rw [(watch_checked check r).1, ← (run.ofImage image).watch_refused_iff r j]
    refine exists_congr fun cause => ?_
    cases ((run.ofImage image).watch r).value.1 with
    | ok report => exact ⟨fun same => (by cases same), fun same => (by cases same)⟩
    | error e =>
      change Except.error (TableFailure.apply e) = _ ↔ _
      simp

theorem watchAll_state (runs : List (TableRun Recording)) (r : Recording) :
    (watchAll runs r).state = r.counting ((watchAll runs r).value.flatMap (·.2.calls)) := by
  induction runs generalizing r with
  | nil => simp [watchAll, Recording.counting, entriesTried, keptOf]
  | cons run rest ih =>
    rw [watchAll_cons, List.flatMap_cons, Recording.counting_append, ← watch_state]
    exact ih _

theorem watchAll_kept (runs : List (TableRun Recording)) (r : Recording) :
    keptOf ((watchAll runs r).value.flatMap (·.2.calls)) =
      (runs.zip ((watchAll runs r).value.map Prod.fst)).flatMap fun (run, value) => run.told value := by
  induction runs generalizing r with
  | nil => rfl
  | cons run rest ih =>
    rw [watchAll_cons, List.flatMap_cons, SinkCall.keptOf_append, watch_kept, List.map_cons,
      List.zip_cons_cons, List.flatMap_cons]
    exact congrArg _ (ih _)

/-- A run ends at an entry if the ordinal to refuse is one of its own. -/
theorem watchAll_refused_iff (runs : List (TableRun Recording)) (r : Recording) (i j : Nat) :
    let watched := (watchAll runs r).value
    Refused (watched.map Prod.fst) i j ↔
      ordinal r watched i + j < ordinal r watched (i + 1) ∧
        r.failAt = some (ordinal r watched i + j) := by
  induction runs generalizing r i with
  | nil =>
    have nothing : ¬ (r.attempts + j < r.attempts) := Nat.not_lt.mpr (Nat.le_add_right _ _)
    simp [watchAll, Refused, ordinal, entriesTried, nothing]
  | cons run rest ih =>
    cases i with
    | zero =>
      have first := run.watch_refused_iff r j
      simpa [watchAll_cons, Refused, ordinal, entriesTried] using first
    | succ i =>
      have later := ih (run.watch r).state i
      have failAt : (run.watch r).state.failAt = r.failAt := by rw [watch_state, Recording.counting]
      have counted (n : Nat) : ordinal (run.watch r).state
          (watchAll rest (run.watch r).state).value n = ordinal r ((run.watch r).value ::
            (watchAll rest (run.watch r).state).value) (n + 1) := by
        simp [ordinal, watch_state, Recording.counting, Nat.add_assoc]
      dsimp only at later
      rw [counted, counted, failAt] at later
      simpa [watchAll_cons, Refused] using later

theorem watchAll_unchecked {runs : List (TableRun Recording)} {run : TableRun Recording} {i : Nat}
    {cause : ImageError} (found : runs[i]? = some run)
    (fails : run.checker.checkTable run.table = .error cause) (r : Recording) :
    ∃ reached, (watchAll runs r).value[i]? = some (.error (.image cause), ⟨reached, []⟩) := by
  induction runs generalizing r i with
  | nil => cases found
  | cons first rest ih =>
    rw [watchAll_cons]
    cases i with
    | zero =>
      cases found
      exact ⟨r, by simp [watch_unchecked fails]⟩
    | succ i =>
      obtain ⟨reached, unfelt⟩ := ih found (first.watch r).state
      exact ⟨reached, unfelt⟩

theorem ordinal_mono (r : Recording)
    (watched : List (Except TableFailure ApplyReport × Observed Recording)) {i k : Nat}
    (before : i ≤ k) : ordinal r watched i ≤ ordinal r watched k := by
  obtain ⟨n, rfl⟩ := Nat.exists_eq_add_of_le before
  rw [ordinal, ordinal, List.take_add, List.flatMap_append, SinkCall.entriesTried_append]
  omega

/-- Any row of tables applied to a sink that records, in any of the ways and under any flags. The
sink has kept, run by run, the entries that the run reports or counts as completed, and then its
control word if the run reports that; and nothing else. A run ends at an entry exactly if the ordinal
to refuse is one of its own, counted over all runs from what the sink had counted before, so at most
one run does. A table that fails the check has no part in either. -/
theorem performAll_recorded (runs : List (TableRun Recording)) (sink : Recording) :
    let direct := performAll runs sink
    let watched := watchAll runs sink
    let next := ordinal sink watched.value
    (watched.value.map Prod.fst = direct.value ∧ watched.state = direct.state) ∧
    direct.state.writes = sink.writes ++
      (runs.zip direct.value).flatMap (fun (run, value) => run.told value) ∧
    (∀ i j, Refused direct.value i j ↔
      next i + j < next (i + 1) ∧ sink.failAt = some (next i + j)) ∧
    (∀ i j k l, Refused direct.value i j → Refused direct.value k l → i = k) ∧
    ∀ i run cause, runs[i]? = some run → run.checker.checkTable run.table = .error cause →
      direct.value[i]? = some (.error (.image cause)) ∧ next (i + 1) = next i ∧
        run.told (.error (.image cause)) = [] := by
  intro direct watched next
  obtain ⟨values, state⟩ : watched.value.map Prod.fst = direct.value ∧ watched.state = direct.state :=
    watchAll_performAll runs sink
  have refused (i j : Nat) : Refused direct.value i j ↔
      next i + j < next (i + 1) ∧ sink.failAt = some (next i + j) := by
    rw [← values]
    exact watchAll_refused_iff runs sink i j
  refine ⟨⟨values, state⟩, ?_, refused, ?_, ?_⟩
  · rw [← values, ← watchAll_kept, ← state, watchAll_state]
    rfl
  · intro i j k l one other
    obtain ⟨inside, due⟩ := (refused i j).mp one
    obtain ⟨insideToo, dueToo⟩ := (refused k l).mp other
    have same : next i + j = next k + l := Option.some.inj (due.symm.trans dueToo)
    -- of two runs the later one begins behind the last ordinal of the earlier
    rcases Nat.lt_trichotomy i k with before | rfl | behind
    · have : next (i + 1) ≤ next k := ordinal_mono sink watched.value before
      omega
    · rfl
    · have : next (k + 1) ≤ next i := ordinal_mono sink watched.value behind
      omega
  · intro i run cause found fails
    obtain ⟨reached, unfelt⟩ : ∃ reached, watched.value[i]? = some (.error (.image cause), ⟨reached, []⟩) :=
      watchAll_unchecked found fails sink
    refine ⟨by rw [← values, List.getElem?_map, unfelt]; rfl, ?_, by simp only [told, fails]⟩
    change ordinal sink watched.value (i + 1) = ordinal sink watched.value i
    simp [ordinal, List.take_add_one, unfelt]

end TableRun
end Applier
end FabricLoader
