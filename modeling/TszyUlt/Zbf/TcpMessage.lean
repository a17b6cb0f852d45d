import TszyUlt.Lib.Memory

/-!
# Messages and message protocols

`zbf/tcp_message.hpp`. A `TcpMessage` is the bytes of one frame, header included. A
`TcpMessageProtocol` is the interface through which the transport cuts frames out of a byte stream:
how long a header is, and how long a body a header announces. `default_msg_proto`, a header of four
bytes, is the protocol of the transport itself. Null message pointers are not values of
the model: the transport never passes one.
-/

set_option autoImplicit false
set_option relaxedAutoImplicit false

namespace TszyUlt.Zbf

open Lib

/-- A byte string: `std::string` holding raw data. -/
abbrev Bytes := List Byte

/-- `tcp_message`: the bytes of one frame. -/
structure TcpMessage where
  data : Bytes
  deriving DecidableEq, Repr

/-- The message type of a frame too short to hold a header. -/
def typeNaN : BitVec 32 := 0x00#32

/-- The message type of a heartbeat. -/
def heartbeatType : BitVec 32 := 0x01#32

/-- `tcp_message_protocol`: the framing interface of the transport. -/
structure TcpMessageProtocol where
  genHeartbeat : TcpMessage
  isHeartbeat : TcpMessage → Bool
  type : TcpMessage → BitVec 32
  headerSize : BitVec 32
  bodySize : TcpMessage → BitVec 32
  maxBodySize : BitVec 32

/-- The default of `tcp_message_protocol::MaxBodySize`, 16 MiB. -/
def defaultMaxBodySize : BitVec 32 := 1048576#32 * 16#32

namespace DefaultMsgProto

variable (order : ByteOrder)

/-- `extract_uint32`. -/
def extractUint32 (data : Bytes) : BitVec 32 :=
  if data.length < 4 then 0 else netToHost order 4 (load order 32 (data.take 4))

/-- `append_uint32`. -/
def appendUint32 (data : Bytes) (val : BitVec 32) : Bytes :=
  data ++ store order 4 (hostToNet order 4 val)

/-- The message that `genMessage` builds: the type in the high byte of the header, the size of the
body in the others. -/
def build (type : BitVec 8) (body : Bytes) : TcpMessage where
  data := appendUint32 order [] ((type.setWidth 32 <<< 24) ||| BitVec.ofNat 32 body.length) ++ body

/-- `genMessage`. -/
def genMessage (type : BitVec 8) (body : Bytes) : Option TcpMessage :=
  if body.length > defaultMaxBodySize.toNat then none else some (build order type body)

/-- `type`. -/
def type (msg : TcpMessage) : BitVec 32 :=
  if msg.data.length < 4 then typeNaN
  else (extractUint32 order msg.data &&& 0xFF000000#32) >>> 24

/-- `bodySize`. -/
def bodySize (msg : TcpMessage) : BitVec 32 :=
  if msg.data.length < 4 then 0 else extractUint32 order msg.data &&& 0xFFFFFF#32

end DefaultMsgProto

/-- `default_msg_proto`. -/
def defaultMsgProto (order : ByteOrder) : TcpMessageProtocol where
  genHeartbeat := DefaultMsgProto.build order (heartbeatType.setWidth 8) []
  isHeartbeat := fun msg ↦ DefaultMsgProto.type order msg == heartbeatType
  type := DefaultMsgProto.type order
  headerSize := 4
  bodySize := DefaultMsgProto.bodySize order
  maxBodySize := defaultMaxBodySize

end TszyUlt.Zbf
