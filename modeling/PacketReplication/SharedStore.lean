import PacketReplication.System

/-!
# The table among the other tables of the App DB

The App DB is shared: each P4RT table lives in it under its own `<table name>:` prefix, and the
other tables' writers apply their tuples to it between this translation's. A run of the shared
store is any interleaving of two kinds of write (`AppDbWrite`): the tuple
`CreatePacketReplicationTableUpdateForAppDb` serializes for one update, and a tuple of another
table, whose key is outside `TablePrefix()`.

`getAllAppDbPacketReplicationTableEntries_runWrites`: from a store with no key under the prefix,
after any such run, reading the table succeeds and returns exactly the live entries of this
table's updates, as if no other table had been written (an update of an unsupported type writes
nothing and changes nothing), and every key outside the prefix holds
what the other tables' tuples alone would have left. Neither side sees the other's writes.

Proof. `Refines` relates the store to the abstract table and to a second store, the one the
other writers alone would have built. This translation's tuple moves the table
(`Refines.stepAny`), another table's tuple moves the second store (`Refines.applyOther`), so each
write keeps the relation, and by induction every run does (`Refines.runWrites`). Reading back a
store under the relation is `Refines.readAll`.
-/

namespace PacketReplication

open Absl

/-! ## One tuple on the store -/

namespace AppDb

theorem lookup_apply (db : AppDb) (kfv : KeyOpFieldsValuesTuple) (key : String) :
    (db.apply kfv).lookup key =
      if key = kfv.key then
        if kfv.op = "SET" then some kfv.fieldsValues
        else if kfv.op = "DEL" then none else db.lookup key
      else db.lookup key := by
  unfold apply
  by_cases hk : key = kfv.key
  · subst hk
    rw [if_pos rfl]
    split_ifs <;> simp [AList.lookup_insert, AList.lookup_erase]
  · rw [if_neg hk]
    split_ifs <;> simp [AList.lookup_insert_ne hk, AList.lookup_erase_ne hk]

theorem mem_keys_apply {db : AppDb} {kfv : KeyOpFieldsValuesTuple} {key : String}
    (h : key ∈ (db.apply kfv).keys) : key ∈ db.keys ∨ key = kfv.key := by
  by_cases hk : key = kfv.key
  · exact .inr hk
  · have hsome := AList.lookup_isSome.2 (AList.mem_keys.2 h)
    rw [lookup_apply, if_neg hk] at hsome
    exact .inl (AList.mem_keys.1 (AList.lookup_isSome.1 hsome))

end AppDb

/-! ## Runs of the shared store -/

/-- One write to the shared App DB. -/
inductive AppDbWrite
  /-- The tuple this translation serializes for one update of one entry. -/
  | packetReplication (updateType : UpdateType) (entry : IrPacketReplicationEngineEntry)
  /-- A tuple another table's writer applies. -/
  | otherTable (kfv : KeyOpFieldsValuesTuple)
deriving DecidableEq, Repr

namespace AppDbWrite

variable (tableName : String)

/-- The store after the write. -/
def apply (db : AppDb) : AppDbWrite → AppDb
  | packetReplication updateType entry =>
    db.applyBatch (createPacketReplicationTableUpdateForAppDb tableName updateType entry []).2
  | otherTable kfv => db.apply kfv

/-- What a run assumes of a write: another table's tuple has its key outside `TablePrefix()`.
This translation's updates may be of any type. -/
def Allowed : AppDbWrite → Prop
  | packetReplication _ _ => True
  | otherTable kfv => startsWith kfv.key (tablePrefix tableName) = false

instance decidableAllowed : DecidablePred (Allowed tableName)
  | packetReplication _ _ => inferInstanceAs (Decidable True)
  | otherTable kfv => inferInstanceAs (Decidable (startsWith kfv.key _ = false))

/-- This table's update, if the write is one. -/
def update? : AppDbWrite → Option (UpdateType × IrPacketReplicationEngineEntry)
  | packetReplication updateType entry => some (updateType, entry)
  | otherTable _ => none

/-- Another table's tuple, if the write is one. -/
def otherTuple? : AppDbWrite → Option KeyOpFieldsValuesTuple
  | packetReplication _ _ => none
  | otherTable kfv => some kfv

end AppDbWrite

/-- The shared store after a run of writes, in order. -/
def runWrites (tableName : String) (db : AppDb) (writes : List AppDbWrite) : AppDb :=
  writes.foldl (AppDbWrite.apply tableName) db

/-! ## Each write keeps the refinement -/

section
variable {tableName : String} {db₀ db : AppDb} {t : GroupTable}

theorem Refines.stepAny (h : Refines tableName db₀ t db) (updateType : UpdateType)
    (e : IrPacketReplicationEngineEntry) :
    Refines tableName db₀ (t.update updateType e)
      (db.applyBatch (createPacketReplicationTableUpdateForAppDb tableName updateType e []).2) := by
  by_cases hType : updateType = .INSERT ∨ updateType = .MODIFY ∨ updateType = .DELETE
  · exact h.step hType e
  · have h₁ : ¬(updateType = .INSERT ∨ updateType = .MODIFY) := fun h₁ =>
      hType (or_assoc.1 (.inl h₁))
    have h₂ : ¬updateType = .DELETE := fun h₂ => hType (.inr (.inr h₂))
    rw [createPacketReplicationTableUpdateForAppDb_eq, GroupTable.update, if_neg h₁, if_neg h₁,
      if_neg h₂, if_neg h₂]
    exact h

theorem Refines.applyOther (h : Refines tableName db₀ t db) {kfv : KeyOpFieldsValuesTuple}
    (hkfv : startsWith kfv.key (tablePrefix tableName) = false) :
    Refines tableName (db₀.apply kfv) t (db.apply kfv) where
  group g := by
    have hne : tablePrefix tableName ++ hex g ≠ kfv.key := fun e => by
      rw [← e, startsWith_iff.2 ⟨_, rfl⟩] at hkfv
      cases hkfv
    rw [AppDb.lookup_apply, if_neg hne, h.group g]
  other key hkey := by rw [AppDb.lookup_apply, AppDb.lookup_apply, h.other key hkey]

theorem noPrefixedKey_apply
    (h₀ : ∀ key ∈ db₀.keys, startsWith key (tablePrefix tableName) = false)
    {kfv : KeyOpFieldsValuesTuple} (hkfv : startsWith kfv.key (tablePrefix tableName) = false) :
    ∀ key ∈ (db₀.apply kfv).keys, startsWith key (tablePrefix tableName) = false :=
  fun key hkey => (AppDb.mem_keys_apply hkey).elim (h₀ key) fun e => e ▸ hkfv

/-- **Run.** Every allowed run keeps the refinement: the table follows this table's updates and
the second store the other tables' tuples, which never put a key under the prefix. -/
theorem Refines.runWrites (h : Refines tableName db₀ t db)
    (h₀ : ∀ key ∈ db₀.keys, startsWith key (tablePrefix tableName) = false)
    (writes : List AppDbWrite) (hwrites : ∀ w ∈ writes, w.Allowed tableName) :
    Refines tableName (db₀.applyBatch (writes.filterMap AppDbWrite.otherTuple?))
        (t.run (writes.filterMap AppDbWrite.update?)) (runWrites tableName db writes) ∧
      ∀ key ∈ (db₀.applyBatch (writes.filterMap AppDbWrite.otherTuple?)).keys,
        startsWith key (tablePrefix tableName) = false := by
  induction writes generalizing db₀ t db with
  | nil => exact ⟨h, h₀⟩
  | cons w writes ih =>
    have hw := hwrites w (List.mem_cons_self _ _)
    have hrest := fun w' hw' => hwrites w' (List.mem_cons_of_mem _ hw')
    cases w with
    | packetReplication updateType entry => exact ih (h.stepAny updateType entry) h₀ hrest
    | otherTable kfv => exact ih (h.applyOther hw) (noPrefixedKey_apply h₀ hw) hrest

end

/-! ## Isolation -/

/-- **This table and the others never see each other's writes.** Start from a store with no key
under `TablePrefix()` and interleave, in any order, this translation's updates, of any type, with
tuples of other tables, whose keys are outside the prefix. Reading the table then succeeds and
returns exactly the live entries of this table's updates alone (`GroupTable.update`: each group
holds the entry of its last `INSERT` or `MODIFY` unless a `DELETE` came after it; other types
change nothing), no group twice; and each key outside the prefix holds what the other tables'
tuples alone would have left. -/
theorem getAllAppDbPacketReplicationTableEntries_runWrites (tableName : String) (db₀ : AppDb)
    (h₀ : ∀ key ∈ db₀.keys, startsWith key (tablePrefix tableName) = false)
    (writes : List AppDbWrite) (hwrites : ∀ w ∈ writes, w.Allowed tableName) :
    (∃ entries, getAllAppDbPacketReplicationTableEntries tableName
        (runWrites tableName db₀ writes) = .ok entries ∧
      (entries.map IrPacketReplicationEngineEntry.groupId).Nodup ∧
      ∀ e, e ∈ entries ↔
        ∃ g, (GroupTable.empty.run (writes.filterMap AppDbWrite.update?)).entry g = some e) ∧
    ∀ key, startsWith key (tablePrefix tableName) = false →
      (runWrites tableName db₀ writes).lookup key =
        (db₀.applyBatch (writes.filterMap AppDbWrite.otherTuple?)).lookup key := by
  obtain ⟨hR, h₁⟩ := (refines_empty h₀).runWrites h₀ writes hwrites
  refine ⟨hR.readAll h₁, fun key hkey => hR.other key fun g e => ?_⟩
  rw [e, startsWith_iff.2 ⟨_, rfl⟩] at hkey
  cases hkey

theorem getAllAppDbPacketReplicationTableEntries_runWrites_otherTables :
    (∀ key ∈ ((∅ : AppDb).insert "ROUTE_TABLE:10.0.0.0/8" [("nexthop", "1")]).keys,
      startsWith key (tablePrefix "REPLICATION_IP_MULTICAST_TABLE") = false) ∧
    (∀ w ∈ [AppDbWrite.packetReplication .INSERT ⟨⟨10, [⟨"Ethernet0", 0⟩]⟩⟩,
        .otherTable ⟨"REPLICATION_IP_MULTICAST_TABLE_V2:a", "SET", [("Ethernet4:0x1", "r")]⟩,
        .otherTable ⟨"ROUTE_TABLE:10.0.0.0/8", "DEL", []⟩,
        .packetReplication ⟨5⟩ ⟨⟨10, []⟩⟩,
        .packetReplication .MODIFY ⟨⟨10, [⟨"Ethernet8", 2⟩]⟩⟩],
      w.Allowed "REPLICATION_IP_MULTICAST_TABLE") ∧
    let db₀ : AppDb := (∅ : AppDb).insert "ROUTE_TABLE:10.0.0.0/8" [("nexthop", "1")]
    let writes : List AppDbWrite :=
      [.packetReplication .INSERT ⟨⟨10, [⟨"Ethernet0", 0⟩]⟩⟩,
        .otherTable ⟨"REPLICATION_IP_MULTICAST_TABLE_V2:a", "SET", [("Ethernet4:0x1", "r")]⟩,
        .otherTable ⟨"ROUTE_TABLE:10.0.0.0/8", "DEL", []⟩,
        .packetReplication ⟨5⟩ ⟨⟨10, []⟩⟩,
        .packetReplication .MODIFY ⟨⟨10, [⟨"Ethernet8", 2⟩]⟩⟩]
    (∃ entries, getAllAppDbPacketReplicationTableEntries "REPLICATION_IP_MULTICAST_TABLE"
        (runWrites "REPLICATION_IP_MULTICAST_TABLE" db₀ writes) = .ok entries ∧
      (entries.map IrPacketReplicationEngineEntry.groupId).Nodup ∧
      ∀ e, e ∈ entries ↔
        ∃ g, (GroupTable.empty.run (writes.filterMap AppDbWrite.update?)).entry g = some e) ∧
    ∀ key, startsWith key (tablePrefix "REPLICATION_IP_MULTICAST_TABLE") = false →
      (runWrites "REPLICATION_IP_MULTICAST_TABLE" db₀ writes).lookup key =
        (db₀.applyBatch (writes.filterMap AppDbWrite.otherTuple?)).lookup key :=
  have h₀ : ∀ key ∈ ((∅ : AppDb).insert "ROUTE_TABLE:10.0.0.0/8" [("nexthop", "1")]).keys,
      startsWith key (tablePrefix "REPLICATION_IP_MULTICAST_TABLE") = false := by decide
  have hwrites : ∀ w ∈ [AppDbWrite.packetReplication .INSERT ⟨⟨10, [⟨"Ethernet0", 0⟩]⟩⟩,
      .otherTable ⟨"REPLICATION_IP_MULTICAST_TABLE_V2:a", "SET", [("Ethernet4:0x1", "r")]⟩,
      .otherTable ⟨"ROUTE_TABLE:10.0.0.0/8", "DEL", []⟩,
      .packetReplication ⟨5⟩ ⟨⟨10, []⟩⟩,
      .packetReplication .MODIFY ⟨⟨10, [⟨"Ethernet8", 2⟩]⟩⟩],
      w.Allowed "REPLICATION_IP_MULTICAST_TABLE" := by decide
  ⟨h₀, hwrites, getAllAppDbPacketReplicationTableEntries_runWrites _ _ h₀ _ hwrites⟩

end PacketReplication
