import Mathlib

/-!
# The data the packet replication translation reads and writes

The IR side (`pdpi::IrReplica`, `IrMulticastGroupEntry`, `IrPacketReplicationEngineEntry`,
`IrEntity`), the App DB side (`swss::KeyOpFieldsValuesTuple` and the table the reader
enumerates), the open `p4::v1::Update::Type` enum and the `absl::Status` the translation
returns. Strings are Lean strings: the translation only appends, compares and splits them.
-/

namespace PacketReplication

/-- `pdpi::IrReplica`: one copy of a packet, to `port`, with replica instance `instance_`
(protoc's accessor name for a field called `instance`). -/
structure IrReplica where
  port : String
  instance_ : UInt32
deriving DecidableEq, Repr

/-- `pdpi::IrMulticastGroupEntry`. -/
structure IrMulticastGroupEntry where
  multicastGroupId : UInt32
  replicas : List IrReplica
deriving DecidableEq, Repr

/-- `pdpi::IrPacketReplicationEngineEntry`, holding its multicast group entry. -/
structure IrPacketReplicationEngineEntry where
  multicastGroupEntry : IrMulticastGroupEntry
deriving DecidableEq, Repr

/-- The group id of an entry, `entry.multicast_group_entry().multicast_group_id()`. -/
def IrPacketReplicationEngineEntry.groupId (entry : IrPacketReplicationEngineEntry) : UInt32 :=
  entry.multicastGroupEntry.multicastGroupId

/-- `pdpi::IrEntity`: a packet replication engine entry, or an entity of another kind (a table
entry), whose contents the comparison never reads. -/
inductive IrEntity
  | packetReplicationEngine (entry : IrPacketReplicationEngineEntry)
  | other
deriving DecidableEq, Repr

/-- `entity.packet_replication_engine_entry()`: the default message when the entity holds
another kind. -/
def IrEntity.packetReplicationEngineEntry : IrEntity → IrPacketReplicationEngineEntry
  | .packetReplicationEngine entry => entry
  | .other => ⟨⟨0, []⟩⟩

/-- `p4::v1::Update::Type`: an open proto3 enum, so the field holds any `int32`. -/
structure UpdateType where
  toBitVec : BitVec 32
deriving DecidableEq, Repr

namespace UpdateType

def INSERT : UpdateType := ⟨1⟩
def MODIFY : UpdateType := ⟨2⟩
def DELETE : UpdateType := ⟨3⟩

end UpdateType

/-- `absl::StatusCode`, restricted to the one code this translation returns. -/
inductive StatusCode
  | invalidArgument
deriving DecidableEq, Repr

/-- A non-OK `absl::Status`. -/
structure Status where
  code : StatusCode
  message : String
deriving DecidableEq, Repr

/-- `gutil::InvalidArgumentErrorBuilder() << message`. -/
def invalidArgumentError (message : String) : Status := ⟨.invalidArgument, message⟩

/-- `swss::KeyOpFieldsValuesTuple`: `kfvKey`, `kfvOp` and `kfvFieldsValues`. -/
structure KeyOpFieldsValuesTuple where
  key : String
  op : String
  fieldsValues : List (String × String)
deriving DecidableEq, Repr

/-- Modelled from the spec: the App DB table behind `p4rt_table.app_db`, with the contract of
spec §6: a finite map from each key present to its ordered field/value list, whose `keys` are
the enumeration. -/
abbrev AppDb := AList fun _ : String => List (String × String)

/-- `app_db->get(key)`: the key's field/value pairs, none for an absent key. -/
def AppDb.get (db : AppDb) (key : String) : List (String × String) := (db.lookup key).getD []

end PacketReplication
