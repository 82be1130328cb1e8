import DeviceScript.Fault

/-! The device session that scripts drive: switch to a device, send to it, await its output. -/

namespace DeviceScript

abbrev Reply (ω α : Type) := Except Fault α × ω

/-- Session operations over a world `ω`. Awaiting takes a pattern, a timeout in nanoseconds and
whether to clear the output first. -/
structure Session (ω : Type) where
  switchDevice : Text → ω → Reply ω Unit
  send : Text → ω → Reply ω Text
  await : Text → Int → Bool → ω → Reply ω Bool

structure Exchange where
  device : Text
  command : Text
  output : Text
deriving Repr, DecidableEq

end DeviceScript
