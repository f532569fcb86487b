import FabricLoader.Sink.Basic

/-! A sink on loan. Both kinds of writes go to the sink behind it as they are, a control write to
its control write. -/
namespace FabricLoader

structure Lent (σ : Type) where
  sink : σ

instance {σ : Type} [RegisterSink σ] : RegisterSink (Lent σ) where
  write address value := (RegisterSink.write address value).onPart Lent.sink fun sink _ => ⟨sink⟩
  writeControl address value :=
    (RegisterSink.writeControl address value).onPart Lent.sink fun sink _ => ⟨sink⟩

end FabricLoader
