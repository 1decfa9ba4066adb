/-!
Accesses to device ports: the only way in which drivers talk to their devices.
-/

namespace Nucleus.Device

abbrev Port := UInt16

inductive PortAccess where
  | read (port : Port)
  | write (port : Port) (value : UInt8)
  /-- Leaves the device some time for its last command. -/
  | wait
  deriving DecidableEq, Repr

end Nucleus.Device
