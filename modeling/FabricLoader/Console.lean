import FabricLoader.Event
import FabricLoader.Text.Padded

/-! What the program shows of its events: printed text as it is, and log lines up to a level, each
with the number of host writes so far and the number since the line shown before. -/
namespace FabricLoader

inductive Shown where
  | line (writes since : Nat) (line : LogLine)
  | text (text : String)
  deriving DecidableEq, Repr

def Shown.render : Shown → String
  | line writes since logged =>
    let level := logged.level.name
    let gap := String.ofList (List.replicate (6 - level.length) ' ')
    s!"[{Text.zeroDecimal 6 writes} +{Text.zeroDecimal 4 since}] {level}{gap}{logged.text}\n"
  | text printed => printed

/-- Host writes so far, and those at the line shown last. -/
structure Console where
  writes : Nat
  last : Nat
  deriving DecidableEq, Repr

namespace Console

def start : Console := ⟨0, 0⟩

def step (threshold : Level) (console : Console) : Event → Console × Option Shown
  | .line line =>
    if threshold.shownAt line.level then
      (⟨console.writes, console.writes⟩,
        some (.line console.writes (console.writes - console.last) line))
    else (console, none)
  | .access (.write ..) => ({ console with writes := console.writes + 1 }, none)
  | .access _ => (console, none)
  | .print text => (console, some (.text text))

def shown (threshold : Level) (console : Console) : List Event → List Shown
  | [] => []
  | event :: events =>
    let (next, new) := console.step threshold event
    new.toList ++ next.shown threshold events

end Console
end FabricLoader
