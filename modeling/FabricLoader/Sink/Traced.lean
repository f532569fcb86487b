import FabricLoader.Sink.Basic

/-! A sink that logs and counts every write on its way to another one, failed writes included. -/
namespace FabricLoader

structure Traced (σ : Type) where
  inner : σ
  name : String
  count : Nat

namespace Traced
variable {σ : Type}

/-- The write as the inner sink takes it, after one log line. -/
def through (kind : String) (address value : UInt32)
    (write : Action Event σ (Except WriteError Unit)) :
    Action Event (Traced σ) (Except WriteError Unit) := do
  let sink ← Action.state
  Action.log .trace (s!"{sink.name} #{sink.count} {kind} " ++
    s!"addr={Text.hexWord address} value={Text.hexWord value}")
  Action.update fun sink => { sink with count := sink.count + 1 }
  write.onPart Traced.inner fun inner sink => { sink with inner }

instance [RegisterSink σ] : RegisterSink (Traced σ) where
  write address value := through "entry" address value (RegisterSink.write address value)
  writeControl address value := through "control" address value (RegisterSink.writeControl address value)

end Traced
end FabricLoader
