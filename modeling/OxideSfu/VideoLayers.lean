import Mathlib.Order.Fin.Basic

/-!
# Spatial layers and layer policies

The vocabulary shared by the two video selectors (`media/video_ingress.rs`).
-/

namespace OxideSfu.VideoIngress

inductive SpatialLayer | low | medium | high deriving DecidableEq

namespace SpatialLayer

def index : SpatialLayer → Fin 3
  | .low => 0 | .medium => 1 | .high => 2

theorem index_injective : Function.Injective index := by
  intro a b h
  cases a <;> cases b <;> first | rfl | exact absurd h (by decide)

instance : LinearOrder SpatialLayer := LinearOrder.lift' index index_injective

end SpatialLayer

/-- `max` is an admission bound while `desired` is the layer to acquire. -/
structure LayerPolicy where
  (max desired : SpatialLayer)
  deriving DecidableEq

def LayerPolicy.fixed (layer : SpatialLayer) : LayerPolicy := ⟨layer,layer⟩

/-- The spatial and temporal bounds for one descriptor-backed forwarding target. -/
structure DependencyDescriptorLayerPolicy where
  (maxSpatial desiredSpatial : SpatialLayer)
  (maxTemporal desiredTemporal : UInt8)
  deriving DecidableEq

end OxideSfu.VideoIngress
