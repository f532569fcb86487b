import FabricLoader.Sink.Basic

/-! A sink that keeps the writes it accepts. It can be told to refuse one entry write, by its
ordinal among all entry writes attempted, and to refuse every control write. -/
namespace FabricLoader

inductive AcceptedWrite where
  | entry (address value : UInt32)
  | control (address value : UInt32)
  deriving DecidableEq, Repr

structure Recording where
  /-- Accepted writes in order. -/
  writes : List AcceptedWrite
  /-- Entry writes attempted, refused ones included. -/
  attempts : Nat
  /-- The zero-based ordinal of the entry write to refuse. -/
  failAt : Option Nat
  failControl : Bool
  deriving DecidableEq, Repr

namespace Recording

def new (failAt : Option Nat) (failControl : Bool) : Recording := ⟨[], 0, failAt, failControl⟩

def entry (address value : UInt32) (r : Recording) : Except WriteError Unit × Recording :=
  if r.failAt = some r.attempts then (.error (.rejected address), { r with attempts := r.attempts + 1 })
  else (.ok (), { r with attempts := r.attempts + 1, writes := r.writes ++ [.entry address value] })

def control (address value : UInt32) (r : Recording) : Except WriteError Unit × Recording :=
  if r.failControl then (.error (.rejected address), r)
  else (.ok (), { r with writes := r.writes ++ [.control address value] })

instance : RegisterSink Recording where
  write address value := fun r => ⟨(r.entry address value).1, (r.entry address value).2, []⟩
  writeControl address value := fun r => ⟨(r.control address value).1, (r.control address value).2, []⟩

end Recording
end FabricLoader
