import FabricLoader.Files.Store
import Mathlib.Logic.Basic

/-! Writing a file and opening files afterwards. A path that led to a file still leads there, because
the directories on its way stay directories; only the content of the file that was written is new. -/
namespace FabricLoader.FileStore

variable {store written : FileStore} {steps target dir names : List String} {place : Place}
  {content new : List UInt8} {path other : String}

/-- Files stay where they are when one of them is replaced. -/
private theorem find?_replace (steps : List String) (files : List (List String × List UInt8)) :
    (files.map fun f => if f.1 == target then (target, new) else f).find? (·.1 == steps) =
      (files.find? (·.1 == steps)).map fun f => if f.1 == target then (target, new) else f := by
  rw [List.find?_map]
  congr 2
  funext f
  by_cases same : f.1 = target <;> simp [same]

theorem find?_put_self (store : FileStore) (target : List String) (new : List UInt8) :
    (store.put target new).files.find? (·.1 == target) = some (target, new) := by
  unfold put
  split
  · rename_i present
    rw [find?_replace]
    obtain ⟨f, found⟩ := Option.isSome_iff_exists.mp
      (List.find?_isSome.mpr (List.any_eq_true.mp present))
    have same : f.1 = target := by simpa using List.find?_some found
    simp [found, same]
  · rename_i absent
    have missing : store.files.find? (·.1 == target) = none := by
      apply List.find?_eq_none.mpr
      exact fun f member same => absent (List.any_eq_true.mpr ⟨f, member, same⟩)
    simp [List.find?_append, missing]

theorem find?_put_ne (different : steps ≠ target) :
    (store.put target new).files.find? (·.1 == steps) = store.files.find? (·.1 == steps) := by
  unfold put
  split
  · rw [find?_replace]
    cases found : store.files.find? (·.1 == steps) with
    | none => rfl
    | some f =>
      have same : f.1 = steps := by simpa using List.find?_some found
      simp [same, different]
  · simp [List.find?_append, Ne.symm different]

theorem isDirectory_put (directory : store.isDirectory steps) :
    (store.put target new).isDirectory steps := by
  simp only [isDirectory, Bool.or_eq_true] at directory ⊢
  refine directory.imp id fun inside => ?_
  obtain ⟨f, member, below⟩ := List.any_eq_true.mp inside
  unfold put
  split
  · rw [List.any_map]
    apply List.any_eq_true.mpr
    refine ⟨f, member, ?_⟩
    by_cases same : f.1 = target
    · simpa [same] using below
    · simpa [same] using below
  · simp only [List.any_append, inside, Bool.true_or]

theorem placeAt_put_self (store : FileStore) (target : List String) (new : List UInt8) :
    (store.put target new).placeAt target = .file target new := by
  simp [placeAt, find?_put_self]

/-- What is no free name stays what it is, unless it is the file that is written. -/
theorem placeAt_put_ne (different : steps ≠ target) (taken : store.placeAt steps ≠ .free steps) :
    (store.put target new).placeAt steps = store.placeAt steps := by
  unfold placeAt at taken ⊢
  rw [find?_put_ne different]
  cases found : store.files.find? (·.1 == steps) with
  | some f => rfl
  | none =>
    simp only [found] at taken
    by_cases directory : store.isDirectory steps = true
    · simp [directory, isDirectory_put directory]
    · simp [directory] at taken

theorem placeAt_cases (store : FileStore) (steps : List String) :
    (∃ content, store.placeAt steps = .file steps content) ∨
      store.placeAt steps = .directory steps ∨ store.placeAt steps = .free steps := by
  unfold placeAt
  split
  · exact .inl ⟨_, rfl⟩
  · split
    · exact .inr (.inl rfl)
    · exact .inr (.inr rfl)

theorem follow_up (store : FileStore) (dir names : List String) :
    store.follow (.directory dir) (".." :: names) = store.follow (.directory (above dir)) names := by
  simp [follow]

theorem follow_into (store : FileStore) (dir names : List String) {name : String}
    (plain : name ≠ "..") (short : ¬name.utf8ByteSize > 255) :
    store.follow (.directory dir) (name :: names) =
      store.follow (store.placeAt (dir ++ [name])) names := by
  simp only [follow, plain, short, if_false]

/-- One name leads upwards, into a directory, or to the end of the way. -/
theorem follow_cons {name : String}
    (followed : store.follow (.directory dir) (name :: names) = .ok place) :
    name = ".." ∧ store.follow (.directory (above dir)) names = .ok place ∨
    name ≠ ".." ∧ ¬name.utf8ByteSize > 255 ∧
      (store.placeAt (dir ++ [name]) = .directory (dir ++ [name]) ∧
          store.follow (.directory (dir ++ [name])) names = .ok place ∨
        names = [] ∧ store.placeAt (dir ++ [name]) = place ∧
          place ≠ .directory (dir ++ [name])) := by
  rcases eq_or_ne name ".." with rfl | plain
  · rw [follow_up] at followed
    exact .inl ⟨rfl, followed⟩
  by_cases long : name.utf8ByteSize > 255
  · simp [follow, plain, long] at followed
  refine .inr ⟨plain, long, ?_⟩
  rw [follow_into store dir names plain long] at followed
  rcases store.placeAt_cases (dir ++ [name]) with ⟨content, file⟩ | directory | freed
  · cases names with
    | cons => simp [file, follow] at followed
    | nil =>
      rw [file] at followed
      obtain rfl : Place.file _ content = place := by simpa [follow] using followed
      exact .inr ⟨rfl, file, nofun⟩
  · rw [directory] at followed
    exact .inl ⟨directory, followed⟩
  · cases names with
    | cons => simp [freed, follow] at followed
    | nil =>
      rw [freed] at followed
      obtain rfl : Place.free _ = place := by simpa [follow] using followed
      exact .inr ⟨rfl, freed, nofun⟩

namespace Place

def location : Place → List String
  | file steps _ | directory steps | free steps => steps

def after (target : List String) (new : List UInt8) : Place → Place
  | file steps content => file steps (if steps = target then new else content)
  | directory steps => directory steps
  | free steps => file steps new

/-- Something that can be written: a file or a free name. -/
def Leaf (place : Place) : Prop := ∀ steps, place ≠ directory steps

theorem after_location (leaf : place.Leaf) (new : List UInt8) :
    place.after place.location new = file place.location new := by
  cases place with
  | file steps content => simp [after, location]
  | directory steps => exact (leaf steps rfl).elim
  | free steps => rfl

end Place

@[simp] theorem location_placeAt (store : FileStore) (steps : List String) :
    (store.placeAt steps).location = steps := by
  rcases store.placeAt_cases steps with ⟨content, file⟩ | directory | freed
  · rw [file, Place.location]
  · rw [directory, Place.location]
  · rw [freed, Place.location]

theorem placeAt_put (room : store.placeAt target ≠ .directory target)
    (free : store.placeAt steps = .free steps → steps = target) :
    (store.put target new).placeAt steps = (store.placeAt steps).after target new := by
  rcases eq_or_ne steps target with rfl | different
  · rw [placeAt_put_self]
    rcases store.placeAt_cases steps with ⟨content, file⟩ | directory | freed
    · simp [file, Place.after]
    · exact (room directory).elim
    · simp [freed, Place.after]
  · rw [placeAt_put_ne different fun freed => different (free freed)]
    rcases store.placeAt_cases steps with ⟨content, file⟩ | directory | freed
    · simp [file, Place.after, different]
    · simp [directory, Place.after]
    · exact (different (free freed)).elim

/-- Names lead to the same steps after a file was written, be it where they lead or elsewhere. -/
theorem follow_put (room : store.placeAt target ≠ .directory target)
    (free : ∀ steps, place = .free steps → steps = target)
    (followed : store.follow (.directory dir) names = .ok place) :
    (store.put target new).follow (.directory dir) names = .ok (place.after target new) := by
  induction names generalizing dir with
  | nil =>
    obtain rfl : Place.directory dir = place := by simpa [follow] using followed
    simp [follow, Place.after]
  | cons name rest ih =>
    rcases follow_cons followed with
      ⟨rfl, later⟩ | ⟨plain, short, ⟨directory, later⟩ | ⟨rfl, least, leaf⟩⟩
    · rw [follow_up]
      exact ih later
    · -- no directory on the way is the target, which is none
      rw [follow_into _ dir rest plain short, placeAt_put room (by simp [directory]), directory]
      exact ih later
    · rw [follow_into _ dir [] plain short, placeAt_put room (fun freed => free _ (least ▸ freed)),
        least]
      simp [follow]

/-- A place that is no directory lies at steps that end in the last name. -/
theorem follow_last (followed : store.follow (.directory dir) names = .ok place) (leaf : place.Leaf) :
    store.placeAt place.location = place ∧ ∃ name, place.location.getLast? = some name ∧
      names.getLast? = some name ∧ name ≠ ".." := by
  induction names generalizing dir with
  | nil =>
    obtain rfl : Place.directory dir = place := by simpa [follow] using followed
    exact (leaf dir rfl).elim
  | cons name rest ih =>
    rcases follow_cons followed with
      ⟨rfl, later⟩ | ⟨plain, short, ⟨directory, later⟩ | ⟨rfl, rfl, _⟩⟩
    · obtain ⟨lies, last, ends, agrees, plain⟩ := ih later
      exact ⟨lies, last, ends, by simp [List.getLast?_cons, agrees], plain⟩
    · obtain ⟨lies, last, ends, agrees, plain⟩ := ih later
      exact ⟨lies, last, ends, by simp [List.getLast?_cons, agrees], plain⟩
    · exact ⟨by simp, name, by simp, by simp, plain⟩

/-- A path leads to a file or a free name by its names alone, and by a last name that is one. -/
theorem resolve_eq_ok (leaf : place.Leaf) :
    store.resolve path = .ok place ↔ checkPath path = .ok () ∧
      store.follow (start path) (Path.steps path) = .ok place ∧
      (Path.names path).getLast? ≠ some "" ∧ (Path.names path).getLast? ≠ some "." := by
  unfold resolve
  cases checkPath path with
  | error e => simp [Bind.bind, Except.bind]
  | ok =>
    cases store.follow (start path) (Path.steps path) with
    | error e => simp [Bind.bind, Except.bind]
    | ok found =>
      simp only [Bind.bind, Except.bind, Except.ok.injEq, true_and]
      rcases eq_or_ne (Path.names path).getLast? (some "") with slash | named
      · cases found <;> simp [slash, (leaf _).symm]
      rcases eq_or_ne (Path.names path).getLast? (some ".") with dot | plain
      · cases found <;> simp [dot, (leaf _).symm]
      simp only [named, plain, ne_eq, not_false_eq_true, and_true]
      split <;> simp_all

theorem openFile_eq_ok : store.openFile path = .ok (some content) ↔
    ∃ steps, store.resolve path = .ok (.file steps content) := by
  unfold openFile
  cases store.resolve path with
  | error e => simp [Bind.bind, Except.bind]
  | ok place => cases place <;> simp [Bind.bind, Except.bind]

theorem fileName?_of_last {name : String} (last : (Path.steps path).getLast? = some name)
    (plain : name ≠ "..") : Path.fileName? path = some name := by
  unfold Path.fileName?
  rw [last]
  split
  · rename_i up
    exact (plain (Option.some.inj up)).elim
  · rfl

/-- A file or a free name that a path leads to lies at steps that end in the path's file name. -/
theorem resolve_last (resolved : store.resolve path = .ok place) (leaf : place.Leaf) :
    store.placeAt place.location = place ∧ ∃ name, place.location.getLast? = some name ∧
      Path.fileName? path = some name := by
  obtain ⟨_, followed, _⟩ := (resolve_eq_ok leaf).mp resolved
  obtain ⟨lies, name, ends, last, plain⟩ := follow_last followed leaf
  exact ⟨lies, name, ends, fileName?_of_last last plain⟩

theorem fileName?_of_opened (opened : store.openFile path = .ok (some content)) :
    ∃ name, Path.fileName? path = some name := by
  obtain ⟨steps, resolved⟩ := openFile_eq_ok.mp opened
  obtain ⟨_, name, _, last⟩ := resolve_last resolved nofun
  exact ⟨name, last⟩

/-- A write goes to a file or a free name. -/
theorem write_eq_ok (wrote : store.write path content = .ok written) :
    ∃ place, store.resolve path = .ok place ∧ place.Leaf ∧
      written = store.put place.location content := by
  unfold write at wrote
  cases checked : checkPath path with
  | error e => simp [checked, Bind.bind, Except.bind] at wrote
  | ok =>
    simp only [checked, Bind.bind, Except.bind] at wrote
    split at wrote
    · split at wrote
      · cases wrote
      · split at wrote <;> cases wrote
    · cases resolved : store.resolve path with
      | error e => simp [resolved] at wrote
      | ok place =>
        simp only [resolved] at wrote
        cases place with
        | file steps old => exact ⟨_, rfl, nofun, (Except.ok.inj wrote).symm⟩
        | directory dir => cases wrote
        | free steps => exact ⟨_, rfl, nofun, (Except.ok.inj wrote).symm⟩

/-- Whether a path can be written does not depend on the content. -/
theorem write_any (wrote : store.write path content = .ok written) (other : List UInt8) :
    ∃ now, store.write path other = .ok now := by
  unfold write at wrote ⊢
  cases checked : checkPath path with
  | error e => simp [checked, Bind.bind, Except.bind] at wrote
  | ok =>
    simp only [checked, Bind.bind, Except.bind] at wrote ⊢
    split at wrote
    · split at wrote
      · cases wrote
      · split at wrote <;> cases wrote
    · rename_i plain
      rw [if_neg plain]
      cases resolved : store.resolve path with
      | error e => simp [resolved] at wrote
      | ok place =>
        simp only [resolved] at wrote ⊢
        cases place with
        | file steps old => exact ⟨_, rfl⟩
        | directory dir => cases wrote
        | free steps => exact ⟨_, rfl⟩

/-- What a path leads to after a file was written, if it led to a file before or to the steps
written. -/
theorem resolve_put (new : List UInt8) (room : store.placeAt target ≠ .directory target)
    (resolved : store.resolve path = .ok place) (leaf : place.Leaf)
    (free : ∀ steps, place = .free steps → steps = target) :
    (store.put target new).resolve path = .ok (place.after target new) := by
  obtain ⟨checked, followed, named⟩ := (resolve_eq_ok leaf).mp resolved
  refine (resolve_eq_ok ?_).mpr ⟨checked, follow_put room free followed, named⟩
  cases place with
  | file steps content => exact nofun
  | directory steps => exact (leaf steps rfl).elim
  | free steps => exact nofun

/-- What was written is what is read. -/
theorem openFile_write (wrote : store.write path content = .ok written) :
    written.openFile path = .ok (some content) := by
  obtain ⟨place, resolved, leaf, rfl⟩ := write_eq_ok wrote
  have lies := (resolve_last resolved leaf).1
  have room : store.placeAt place.location ≠ .directory place.location := lies.symm ▸ leaf _
  have kept := resolve_put content room resolved leaf fun steps free => by
    rw [free, Place.location]
  rw [Place.after_location leaf] at kept
  exact openFile_eq_ok.mpr ⟨_, kept⟩

/-- A file that could be opened can still be opened. Its content is the one that was written only if
the last name of the path is that of the path written. -/
theorem openFile_write_other {old : List UInt8} (wrote : store.write path content = .ok written)
    (opened : store.openFile other = .ok (some old)) :
    written.openFile other = .ok (some old) ∨
      written.openFile other = .ok (some content) ∧ Path.fileName? other = Path.fileName? path := by
  obtain ⟨place, resolved, leaf, rfl⟩ := write_eq_ok wrote
  obtain ⟨steps, found⟩ := openFile_eq_ok.mp opened
  obtain ⟨lies, name, ends, last⟩ := resolve_last resolved leaf
  have room : store.placeAt place.location ≠ .directory place.location := lies.symm ▸ leaf _
  have kept := resolve_put content room found nofun nofun
  rcases eq_or_ne steps place.location with rfl | different
  · obtain ⟨_, otherName, otherEnds, otherLast⟩ := resolve_last found nofun
    refine .inr ⟨openFile_eq_ok.mpr ⟨_, by simpa [Place.after] using kept⟩, ?_⟩
    rw [otherLast, last, ← otherEnds, ← ends, Place.location]
  · exact .inl (openFile_eq_ok.mpr ⟨steps, by simpa [Place.after, different] using kept⟩)

end FabricLoader.FileStore
