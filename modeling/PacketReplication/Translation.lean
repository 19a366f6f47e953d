import PacketReplication.Absl

/-!
# Serializing IR entries into App DB updates

`createPacketReplicationTableUpdateForAppDb` turns one update of one packet replication engine
entry into one `KeyOpFieldsValuesTuple` appended to the caller's `kfv_updates` vector: a `SET`
with one field per replica for `INSERT` and `MODIFY`, a `DEL` with no fields for `DELETE`, and
an `InvalidArgument` error, with the vector untouched, for any other value of the open enum.

`runUpdates` makes a sequence of such calls on one vector. `runUpdates_spec`: the vector ends
as its initial contents followed by one tuple per successful call, in call order, and each call
returns the key of its tuple, or the error.
-/

namespace PacketReplication

open Absl

section
variable (tableName : String)

/-- `TablePrefix()`: `APP_P4RT_REPLICATION_IP_MULTICAST_TABLE_NAME` and `:`. The table name is a
macro of the `swss` schema, outside this repository, so it is the parameter `tableName`. -/
def tablePrefix : String := tableName ++ ":"

/-- `StripTableName`. -/
def stripTableName (appDbKey : String) : Except Status String :=
  if startsWith appDbKey (tablePrefix tableName) then
    .ok ⟨appDbKey.data.drop (tablePrefix tableName).length⟩
  else .error (invalidArgumentError ("Invalid packet replication App DB key " ++ appDbKey))

/-- Modelled from the spec: `IrMulticastGroupEntryToAppDbKey`, from
`app_db_to_pdpi_ir_translator`, which is not in this repository. Spec §6: the key body is the
group id in hex, with no fixed width and no `0x`. -/
def irMulticastGroupEntryToAppDbKey (entry : IrMulticastGroupEntry) : String :=
  hex entry.multicastGroupId

/-- `GetRedisPacketReplicationTableKey`: `<table_name>:<multicast_group_id>`. -/
def getRedisPacketReplicationTableKey (entry : IrPacketReplicationEngineEntry) : String :=
  tablePrefix tableName ++ irMulticastGroupEntryToAppDbKey entry.multicastGroupEntry

/-- The field name `CreateEntryForInsert` gives a replica: `<port>:0x<hex instance>`. -/
def replicaFieldName (r : IrReplica) : String := r.port ++ ":0x" ++ hex r.instance_

/-- The fields of the `SET` tuple: one per replica, in replica order, each with the unused value
`replica`. -/
def insertFieldsValues (entry : IrPacketReplicationEngineEntry) : List (String × String) :=
  entry.multicastGroupEntry.replicas.map fun r => (replicaFieldName r, "replica")

/-- The body `CreateEntryForInsert` and `CreateEntryForDelete` share: append the tuple
`(key, op, fieldsValues)` for the entry's key and return the key. -/
def appendEntry (op : String) (fieldsValues : List (String × String))
    (entry : IrPacketReplicationEngineEntry) (kfvs : List KeyOpFieldsValuesTuple) :
    String × List KeyOpFieldsValuesTuple :=
  let key := getRedisPacketReplicationTableKey tableName entry
  (key, kfvs ++ [⟨key, op, fieldsValues⟩])

/-- `CreateEntryForInsert`. -/
def createEntryForInsert (entry : IrPacketReplicationEngineEntry)
    (p4rtInserts : List KeyOpFieldsValuesTuple) : String × List KeyOpFieldsValuesTuple :=
  appendEntry tableName "SET" (insertFieldsValues entry) entry p4rtInserts

/-- `CreateEntryForDelete`. -/
def createEntryForDelete (entry : IrPacketReplicationEngineEntry)
    (p4rtDeletes : List KeyOpFieldsValuesTuple) : String × List KeyOpFieldsValuesTuple :=
  appendEntry tableName "DEL" [] entry p4rtDeletes

/-- `CreatePacketReplicationTableUpdateForAppDb`: the returned status and the `kfv_updates`
vector after the call. The unused `p4rt_table` argument is left out. -/
def createPacketReplicationTableUpdateForAppDb (updateType : UpdateType)
    (entry : IrPacketReplicationEngineEntry) (kfvUpdates : List KeyOpFieldsValuesTuple) :
    Except Status String × List KeyOpFieldsValuesTuple :=
  if updateType = .INSERT ∨ updateType = .MODIFY then
    let (updateKey, kfvUpdates) := createEntryForInsert tableName entry kfvUpdates
    (.ok updateKey, kfvUpdates)
  else if updateType = .DELETE then
    let (updateKey, kfvUpdates) := createEntryForDelete tableName entry kfvUpdates
    (.ok updateKey, kfvUpdates)
  else
    (.error (invalidArgumentError
      ("Unsupported update type: " ++ toString updateType.toBitVec.toInt)), kfvUpdates)

/-- Calls of `createPacketReplicationTableUpdateForAppDb` made one after another on one
`kfv_updates` vector: the status of each call, in call order, and the vector at the end. -/
def runUpdates : List (UpdateType × IrPacketReplicationEngineEntry) →
    List KeyOpFieldsValuesTuple → List (Except Status String) × List KeyOpFieldsValuesTuple
  | [], kfvUpdates => ([], kfvUpdates)
  | (updateType, entry) :: calls, kfvUpdates =>
    let (status, kfvUpdates) :=
      createPacketReplicationTableUpdateForAppDb tableName updateType entry kfvUpdates
    let (statuses, kfvUpdates) := runUpdates calls kfvUpdates
    (status :: statuses, kfvUpdates)

end

/-! ## One call -/

section
variable {tableName : String}

@[simp] theorem runUpdates_nil (kfvUpdates : List KeyOpFieldsValuesTuple) :
    runUpdates tableName [] kfvUpdates = ([], kfvUpdates) := rfl

@[simp] theorem getRedisPacketReplicationTableKey_eq (e : IrPacketReplicationEngineEntry) :
    getRedisPacketReplicationTableKey tableName e = tablePrefix tableName ++ hex e.groupId := rfl

@[simp] theorem createPacketReplicationTableUpdateForAppDb_eq (updateType : UpdateType)
    (entry : IrPacketReplicationEngineEntry) (kfvUpdates : List KeyOpFieldsValuesTuple) :
    createPacketReplicationTableUpdateForAppDb tableName updateType entry kfvUpdates =
      if updateType = .INSERT ∨ updateType = .MODIFY then
        (.ok (getRedisPacketReplicationTableKey tableName entry),
          kfvUpdates ++ [⟨getRedisPacketReplicationTableKey tableName entry, "SET",
            insertFieldsValues entry⟩])
      else if updateType = .DELETE then
        (.ok (getRedisPacketReplicationTableKey tableName entry),
          kfvUpdates ++ [⟨getRedisPacketReplicationTableKey tableName entry, "DEL", []⟩])
      else
        (.error (invalidArgumentError
          ("Unsupported update type: " ++ toString updateType.toBitVec.toInt)), kfvUpdates) :=
  rfl

theorem createPacketReplicationTableUpdateForAppDb_snd (updateType : UpdateType)
    (entry : IrPacketReplicationEngineEntry) (kfvUpdates : List KeyOpFieldsValuesTuple) :
    (createPacketReplicationTableUpdateForAppDb tableName updateType entry kfvUpdates).2 =
      kfvUpdates ++
        (createPacketReplicationTableUpdateForAppDb tableName updateType entry []).2 := by
  rw [createPacketReplicationTableUpdateForAppDb_eq, createPacketReplicationTableUpdateForAppDb_eq]
  split_ifs <;> simp

theorem runUpdates_snd (calls : List (UpdateType × IrPacketReplicationEngineEntry))
    (kfvUpdates : List KeyOpFieldsValuesTuple) :
    (runUpdates tableName calls kfvUpdates).2 =
      kfvUpdates ++ (runUpdates tableName calls []).2 := by
  induction calls generalizing kfvUpdates with
  | nil => simp
  | cons call calls ih =>
    simp only [runUpdates]
    rw [ih, ih (createPacketReplicationTableUpdateForAppDb tableName call.1 call.2 []).2,
      createPacketReplicationTableUpdateForAppDb_snd, List.append_assoc]

/-- **Batching keeps call order and failed calls have no effect.** After any sequence of calls
on one vector, the vector is its initial contents followed by the tuple of each successful call,
in call order: a `SET` with one `<port>:0x<hex instance>` field per replica for `INSERT` and
`MODIFY`, a `DEL` with no field for `DELETE`. A call succeeds exactly for these three types and
returns its tuple's key; any other type gives `InvalidArgument` and appends nothing. -/
theorem runUpdates_spec (calls : List (UpdateType × IrPacketReplicationEngineEntry))
    (kfvUpdates : List KeyOpFieldsValuesTuple) :
    (runUpdates tableName calls kfvUpdates).2 = kfvUpdates ++ calls.filterMap (fun c =>
      if c.1 = .INSERT ∨ c.1 = .MODIFY then
        some ⟨getRedisPacketReplicationTableKey tableName c.2, "SET",
          c.2.multicastGroupEntry.replicas.map fun r => (r.port ++ ":0x" ++ hex r.instance_,
            "replica")⟩
      else if c.1 = .DELETE then some ⟨getRedisPacketReplicationTableKey tableName c.2, "DEL", []⟩
      else none) ∧
    (runUpdates tableName calls kfvUpdates).1 = calls.map (fun c =>
      if c.1 = .INSERT ∨ c.1 = .MODIFY ∨ c.1 = .DELETE then
        .ok (getRedisPacketReplicationTableKey tableName c.2)
      else .error (invalidArgumentError
        ("Unsupported update type: " ++ toString c.1.toBitVec.toInt))) := by
  induction calls generalizing kfvUpdates with
  | nil => simp
  | cons call calls ih =>
    obtain ⟨updateType, entry⟩ := call
    simp only [runUpdates, createPacketReplicationTableUpdateForAppDb_eq]
    by_cases h₁ : updateType = .INSERT ∨ updateType = .MODIFY
    · have h₃ : updateType = .INSERT ∨ updateType = .MODIFY ∨ updateType = .DELETE :=
        h₁.imp_right Or.inl
      simp [h₁, h₃, ih, insertFieldsValues, replicaFieldName]
    · by_cases h₂ : updateType = .DELETE
      · have h₃ : updateType = .INSERT ∨ updateType = .MODIFY ∨ updateType = .DELETE :=
          Or.inr (Or.inr h₂)
        simp [h₁, if_pos h₂, h₃, ih]
      · have h₃ : ¬(updateType = .INSERT ∨ updateType = .MODIFY ∨ updateType = .DELETE) := by
          tauto
        simp [h₁, h₂, h₃, ih]

end

end PacketReplication
