import HubLink.Bytes.Hex

/-!
# Service identifiers

Services and characteristics of nodes and hubs have identifiers of 128 bits that differ in sixteen.
-/

namespace HubLink.Node.Service

/-- What all identifiers end in. -/
def baseSuffix : String := "-0000-1000-8000-00805f9b34fb"

/-- The whole identifier of a short one. -/
def uuid (short : UInt16) : String :=
  "0000" ++ String.ofList (Hex.padded 4 short.toNat) ++ baseSuffix

/-- Services and characteristics of the standard profile: device information, battery, the strings
of the former (manufacturer, model, serial number, hardware, firmware and software revision), and
the battery level. -/
def standard : List String :=
  [0x180A, 0x180F, 0x2A29, 0x2A24, 0x2A25, 0x2A27, 0x2A26, 0x2A28, 0x2A19].map uuid

/-- The sensor service of a node: the service, reading, configuration, calibration, binding,
diagnostics, log export, command. -/
def sensor : List String :=
  [0x1000, 0x1001, 0x1002, 0x1003, 0x1004, 0x1005, 0x1006, 0x1007].map uuid

/-- The management service of a hub: the service, status, nodes, scan control, commissioning,
configuration. -/
def hub : List String :=
  [0x2000, 0x2001, 0x2002, 0x2003, 0x2004, 0x2005].map uuid

/-- The update service: the service, control point, data, status. -/
def firmware : List String :=
  [0x3000, 0x3001, 0x3002, 0x3003].map uuid

end HubLink.Node.Service
