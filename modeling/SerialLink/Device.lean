-- A USB serial device as an enumeration tells of it.

namespace SerialLink

structure DeviceInfo where
  /-- The port that the device is reached by. -/
  identifier : String
  vendorId : UInt16
  productId : UInt16
  productName : Option String := none
  deviceClass : Option UInt8 := none
  deriving DecidableEq

namespace DeviceInfo

/-- The product name, or the identifier of a device that tells none. -/
def name (d : DeviceInfo) : String := d.productName.getD d.identifier

def description (d : DeviceInfo) : String := d.name ++ "(" ++ d.identifier ++ ")"

end DeviceInfo

end SerialLink
