/-! What a run leaves behind besides its results: log lines, accesses to the host bus and printed
text, in the order in which they happened. Nothing is filtered and nothing is counted here: a level
only decides what a reader is shown, and the number of host writes so far is the number of write
accesses so far. -/
namespace FabricLoader

/-- How much a log line matters, the most urgent first. -/
inductive Level where
  | error | warn | info | debug | trace
  deriving DecidableEq, Repr

namespace Level

def rank : Level → Nat
  | error => 0
  | warn => 1
  | info => 2
  | debug => 3
  | trace => 4

def name : Level → String
  | error => "ERROR"
  | warn => "WARN"
  | info => "INFO"
  | debug => "DEBUG"
  | trace => "TRACE"

/-- A reader at `threshold` is shown the lines at least as urgent. -/
def shownAt (threshold level : Level) : Bool := level.rank ≤ threshold.rank

end Level

structure LogLine where
  level : Level
  text : String
  deriving DecidableEq, Repr

inductive Access where
  | reset
  | read (address : UInt32)
  | write (address value : UInt32)
  deriving DecidableEq, Repr

inductive Event where
  | line (line : LogLine)
  | access (access : Access)
  | print (text : String)
  deriving DecidableEq, Repr

def Access.isWrite : Access → Bool
  | write .. => true
  | _ => false

namespace Event

def lines (events : List Event) : List LogLine :=
  events.filterMap fun | line l => some l | _ => none

def accesses (events : List Event) : List Access :=
  events.filterMap fun | access a => some a | _ => none

def isHostWrite : Event → Bool
  | access (.write ..) => true
  | _ => false

def hostWrites (events : List Event) : Nat := events.countP isHostWrite

@[simp] theorem lines_append (a b : List Event) : lines (a ++ b) = lines a ++ lines b := by
  simp [lines]

@[simp] theorem accesses_append (a b : List Event) : accesses (a ++ b) = accesses a ++ accesses b := by
  simp [accesses]

@[simp] theorem hostWrites_append (a b : List Event) :
    hostWrites (a ++ b) = hostWrites a + hostWrites b := by
  simp [hostWrites]

/-- The host writes can be counted among the accesses alone. -/
theorem hostWrites_eq_countP (events : List Event) :
    hostWrites events = (accesses events).countP Access.isWrite := by
  rw [hostWrites, accesses, List.countP_filterMap]
  refine List.countP_congr fun event _ => ?_
  cases event with
  | access a => cases a <;> rfl
  | line | print => rfl

end Event
end FabricLoader
