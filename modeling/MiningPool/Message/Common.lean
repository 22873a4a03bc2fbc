import MiningPool.Wire.Record

/-!
# Messages common to all subprotocols

Messages that set up connections and move them to other endpoints.
-/

namespace MiningPool.Message.Common

open MiningPool.Wire

/-- Ask for a connection of a subprotocol and a version in a range. -/
structure SetupConnection where
  protocol : Protocol
  minVersion : UInt16
  maxVersion : UInt16
  flags : UInt32
  endpointHost : Blob .str0255
  endpointPort : UInt16
  vendor : Blob .str0255
  hardwareVersion : Blob .str0255
  firmware : Blob .str0255
  deviceId : Blob .str0255
  deriving DecidableEq, Repr

instance : Record SetupConnection where
  schema :=
    [("protocol", .protocol),
      ("min_version", .u16),
      ("max_version", .u16),
      ("flags", .u32),
      ("endpoint_host", .blob .str0255),
      ("endpoint_port", .u16),
      ("vendor", .blob .str0255),
      ("hardware_version", .blob .str0255),
      ("firmware", .blob .str0255),
      ("device_id", .blob .str0255)]
  toFields message :=
    (message.protocol, message.minVersion, message.maxVersion, message.flags,
     message.endpointHost, message.endpointPort, message.vendor, message.hardwareVersion,
     message.firmware, message.deviceId, ())
  ofFields fields :=
    ⟨fields.1, fields.2.1, fields.2.2.1, fields.2.2.2.1, fields.2.2.2.2.1, fields.2.2.2.2.2.1,
     fields.2.2.2.2.2.2.1, fields.2.2.2.2.2.2.2.1, fields.2.2.2.2.2.2.2.2.1,
     fields.2.2.2.2.2.2.2.2.2.1⟩

/-- Accept a connection with the version to use. -/
structure SetupConnectionSuccess where
  usedVersion : UInt16
  flags : UInt32
  deriving DecidableEq, Repr

instance : Record SetupConnectionSuccess where
  schema :=
    [("used_version", .u16),
      ("flags", .u32)]
  toFields message :=
    (message.usedVersion, message.flags, ())
  ofFields fields :=
    ⟨fields.1, fields.2.1⟩

/-- Refuse a connection. -/
structure SetupConnectionError where
  flags : UInt32
  errorCode : Blob .str0255
  deriving DecidableEq, Repr

instance : Record SetupConnectionError where
  schema :=
    [("flags", .u32),
      ("error_code", .blob .str0255)]
  toFields message :=
    (message.flags, message.errorCode, ())
  ofFields fields :=
    ⟨fields.1, fields.2.1⟩

/-- Announce that another endpoint now serves a channel. -/
structure ChannelEndpointChanged where
  channelId : UInt32
  deriving DecidableEq, Repr

instance : Record ChannelEndpointChanged where
  schema :=
    [("channel_id", .u32)]
  toFields message :=
    (message.channelId, ())
  ofFields fields :=
    ⟨fields.1⟩

/-- Ask to connect to another host. -/
structure Reconnect where
  newHost : Blob .str0255
  newPort : UInt16
  deriving DecidableEq, Repr

instance : Record Reconnect where
  schema :=
    [("new_host", .blob .str0255),
      ("new_port", .u16)]
  toFields message :=
    (message.newHost, message.newPort, ())
  ofFields fields :=
    ⟨fields.1, fields.2.1⟩

namespace SetupConnection

/-- The highest version in the range of the message and in the range given. -/
def version? (message : SetupConnection) (least greatest : UInt16) : Option UInt16 :=
  if message.minVersion > greatest ∨ least > message.maxVersion then none
  else some (min message.maxVersion greatest)

/-- Whether all flags required are among those available. -/
def flagsCovered (available required : UInt32) : Bool :=
  required &&& ~~~available == 0

/-- Whether mining flags ask for jobs with a fixed merkle root. -/
def asksStandardJobs (flags : UInt32) : Bool :=
  flags &&& 1 != 0

/-- Whether mining flags ask for the right to propose jobs. -/
def asksWorkSelection (flags : UInt32) : Bool :=
  flags &&& 2 != 0

/-- Whether mining flags ask for the right to roll the version. -/
def asksVersionRolling (flags : UInt32) : Bool :=
  flags &&& 4 != 0

end SetupConnection

end MiningPool.Message.Common
