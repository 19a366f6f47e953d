import PacketReplication.Reader

/-!
# The App DB table over a run of updates

The store applies a batch of tuples in order: a `SET` replaces the key's whole field list and a
`DEL` removes the key (spec §3). `GroupTable` is what the table is for: the entry each live
multicast group holds, under its own id.

`Refines` says that a store holds a group table under `TablePrefix()` and is untouched
elsewhere. The tuple one update serializes to keeps it (`Refines.step`), so by induction a
whole batch does (`Refines.applyUpdates`). From it, `applyUpdates_spec`: starting from a store
with no key under the prefix, after any sequence of updates is serialized and applied, the
prefixed keys are one per group whose last update is not a `DELETE`, each holding the fields
`CreateEntryForInsert` built from that last entry, and every other key is as it was.
-/

namespace PacketReplication

open Absl

namespace AppDb

/-- Modelled from the spec: one tuple of a batch. `SET` replaces the key's whole field list and
`DEL` removes the key; the contract names no other operation. -/
def apply (db : AppDb) (kfv : KeyOpFieldsValuesTuple) : AppDb :=
  if kfv.op = "SET" then db.insert kfv.key kfv.fieldsValues
  else if kfv.op = "DEL" then db.erase kfv.key
  else db

/-- Modelled from the spec: a batch of tuples, applied in order. -/
def applyBatch (db : AppDb) (kfvs : List KeyOpFieldsValuesTuple) : AppDb := kfvs.foldl apply db

theorem applyBatch_append (db : AppDb) (kfvs₁ kfvs₂ : List KeyOpFieldsValuesTuple) :
    db.applyBatch (kfvs₁ ++ kfvs₂) = (db.applyBatch kfvs₁).applyBatch kfvs₂ :=
  List.foldl_append _ _ _ _

@[simp] theorem applyBatch_set (db : AppDb) (key : String) (fieldsValues : List (String × String)) :
    db.applyBatch [⟨key, "SET", fieldsValues⟩] = db.insert key fieldsValues := rfl

@[simp] theorem applyBatch_del (db : AppDb) (key : String) :
    db.applyBatch [⟨key, "DEL", []⟩] = db.erase key := rfl

end AppDb

/-- The App DB after a sequence of updates is serialized into one `kfv_updates` batch by
`createPacketReplicationTableUpdateForAppDb` and the batch is applied. -/
def applyUpdates (tableName : String) (db : AppDb)
    (updates : List (UpdateType × IrPacketReplicationEngineEntry)) : AppDb :=
  db.applyBatch (runUpdates tableName updates []).2

/-- The last of `updates` to group `g`. -/
def lastUpdate (updates : List (UpdateType × IrPacketReplicationEngineEntry)) (g : UInt32) :
    Option (UpdateType × IrPacketReplicationEngineEntry) :=
  updates.reverse.find? fun u => u.2.groupId = g

/-! ## The abstract table -/

/-- What the table is for: the entry each live multicast group holds, under its own id. -/
structure GroupTable where
  entry : UInt32 → Option IrPacketReplicationEngineEntry
  entry_groupId : ∀ g e, entry g = some e → e.groupId = g

namespace GroupTable

def empty : GroupTable := ⟨fun _ => none, fun _ _ h => nomatch h⟩

@[simp] theorem empty_entry (g : UInt32) : empty.entry g = none := rfl

/-- The entry becomes its group's entry. -/
def set (t : GroupTable) (e : IrPacketReplicationEngineEntry) : GroupTable where
  entry g := if e.groupId = g then some e else t.entry g
  entry_groupId g e' h := by
    dsimp only at h
    split_ifs at h with hg
    · exact Option.some.inj h ▸ hg
    · exact t.entry_groupId g e' h

@[simp] theorem set_entry (t : GroupTable) (e : IrPacketReplicationEngineEntry) (g : UInt32) :
    (t.set e).entry g = if e.groupId = g then some e else t.entry g := rfl

/-- The group is gone. -/
def erase (t : GroupTable) (g₀ : UInt32) : GroupTable where
  entry g := if g₀ = g then none else t.entry g
  entry_groupId g e' h := by
    dsimp only at h
    split_ifs at h
    exact t.entry_groupId g e' h

@[simp] theorem erase_entry (t : GroupTable) (g₀ g : UInt32) :
    (t.erase g₀).entry g = if g₀ = g then none else t.entry g := rfl

/-- One update: `INSERT` and `MODIFY` set the entry, `DELETE` erases its group, and any other
type changes nothing. -/
def update (t : GroupTable) (updateType : UpdateType) (e : IrPacketReplicationEngineEntry) :
    GroupTable :=
  if updateType = .INSERT ∨ updateType = .MODIFY then t.set e
  else if updateType = .DELETE then t.erase e.groupId
  else t

/-- The table after a sequence of updates. -/
def run (t : GroupTable) (updates : List (UpdateType × IrPacketReplicationEngineEntry)) :
    GroupTable :=
  updates.foldl (fun t u => t.update u.1 u.2) t

end GroupTable

theorem lastUpdate_cons (u : UpdateType × IrPacketReplicationEngineEntry)
    (updates : List (UpdateType × IrPacketReplicationEngineEntry)) (g : UInt32) :
    lastUpdate (u :: updates) g =
      (lastUpdate updates g).or (if u.2.groupId = g then some u else none) := by
  simp only [lastUpdate, List.reverse_cons, List.find?_append, List.find?_singleton]
  split_ifs <;> simp_all

theorem groupId_of_lastUpdate {updates : List (UpdateType × IrPacketReplicationEngineEntry)}
    {g : UInt32} {u : UpdateType × IrPacketReplicationEngineEntry}
    (h : lastUpdate updates g = some u) : u.2.groupId = g := by
  simpa using List.find?_some h

theorem GroupTable.run_entry (t : GroupTable)
    (updates : List (UpdateType × IrPacketReplicationEngineEntry))
    (hupdates : ∀ u ∈ updates, u.1 = .INSERT ∨ u.1 = .MODIFY ∨ u.1 = .DELETE) (g : UInt32) :
    (t.run updates).entry g = match lastUpdate updates g with
      | none => t.entry g
      | some u => if u.1 = .DELETE then none else some u.2 := by
  induction updates generalizing t with
  | nil => rfl
  | cons u updates ih =>
    rw [GroupTable.run, List.foldl_cons, ← GroupTable.run,
      ih _ fun u' hu' => hupdates u' (List.mem_cons_of_mem _ hu'), lastUpdate_cons]
    cases lastUpdate updates g with
    | some u' => rfl
    | none =>
      have hdel : UpdateType.INSERT ≠ .DELETE ∧ UpdateType.MODIFY ≠ .DELETE ∧
          UpdateType.DELETE ≠ .INSERT ∧ UpdateType.DELETE ≠ .MODIFY := by decide
      rcases hupdates u (List.mem_cons_self _ _) with h | h | h <;>
        by_cases hg : u.2.groupId = g <;>
          simp [GroupTable.update, h, hg, hdel]

/-! ## The store refines the abstract table -/

section
variable {tableName : String}

theorem groupKey_injective {g₁ g₂ : UInt32}
    (h : tablePrefix tableName ++ hex g₁ = tablePrefix tableName ++ hex g₂) : g₁ = g₂ :=
  hex_injective (append_left_cancel h)

variable (tableName)

/-- `db` holds the group table `t` under the table prefix and agrees with `db₀` elsewhere. -/
structure Refines (db₀ : AppDb) (t : GroupTable) (db : AppDb) : Prop where
  group : ∀ g, db.lookup (tablePrefix tableName ++ hex g) = (t.entry g).map insertFieldsValues
  other : ∀ key, (∀ g, key ≠ tablePrefix tableName ++ hex g) → db.lookup key = db₀.lookup key

variable {tableName}
variable {db₀ db : AppDb} {t : GroupTable}

theorem Refines.insert (h : Refines tableName db₀ t db) (e : IrPacketReplicationEngineEntry) :
    Refines tableName db₀ (t.set e)
      (db.insert (tablePrefix tableName ++ hex e.groupId) (insertFieldsValues e)) where
  group g := by
    by_cases hg : e.groupId = g
    · subst hg; simp
    · rw [AList.lookup_insert_ne fun hk => hg (groupKey_injective hk).symm, h.group g]
      simp [hg]
  other key hkey := by rw [AList.lookup_insert_ne (hkey e.groupId), h.other key hkey]

theorem Refines.erase (h : Refines tableName db₀ t db) (g₀ : UInt32) :
    Refines tableName db₀ (t.erase g₀) (db.erase (tablePrefix tableName ++ hex g₀)) where
  group g := by
    by_cases hg : g₀ = g
    · subst hg; simp
    · rw [AList.lookup_erase_ne fun hk => hg (groupKey_injective hk).symm, h.group g]
      simp [hg]
  other key hkey := by rw [AList.lookup_erase_ne (hkey g₀), h.other key hkey]

/-- **Step.** Applying the tuple one supported update serializes to keeps the refinement. -/
theorem Refines.step (h : Refines tableName db₀ t db) {updateType : UpdateType}
    (hType : updateType = .INSERT ∨ updateType = .MODIFY ∨ updateType = .DELETE)
    (e : IrPacketReplicationEngineEntry) :
    Refines tableName db₀ (t.update updateType e)
      (db.applyBatch (createPacketReplicationTableUpdateForAppDb tableName updateType e []).2) := by
  rw [createPacketReplicationTableUpdateForAppDb_eq, GroupTable.update]
  by_cases h₁ : updateType = .INSERT ∨ updateType = .MODIFY
  · rw [if_pos h₁, if_pos h₁]
    exact h.insert e
  · have h₂ : updateType = .DELETE := by tauto
    rw [if_neg h₁, if_neg h₁, if_pos h₂, if_pos h₂]
    exact h.erase e.groupId

/-- **Run.** A whole batch of supported updates keeps the refinement. -/
theorem Refines.applyUpdates (h : Refines tableName db₀ t db)
    (updates : List (UpdateType × IrPacketReplicationEngineEntry))
    (hupdates : ∀ u ∈ updates, u.1 = .INSERT ∨ u.1 = .MODIFY ∨ u.1 = .DELETE) :
    Refines tableName db₀ (t.run updates) (applyUpdates tableName db updates) := by
  induction updates generalizing t db with
  | nil => exact h
  | cons u updates ih =>
    rw [applyUpdates, runUpdates, runUpdates_snd, AppDb.applyBatch_append]
    exact ih (h.step (hupdates u (List.mem_cons_self _ _)) u.2)
      fun u' hu' => hupdates u' (List.mem_cons_of_mem _ hu')

theorem refines_empty (h₀ : ∀ key ∈ db₀.keys, startsWith key (tablePrefix tableName) = false) :
    Refines tableName db₀ GroupTable.empty db₀ where
  group g := by
    have hg : tablePrefix tableName ++ hex g ∉ db₀ := fun hmem => by
      have h := h₀ _ (AList.mem_keys.mp hmem)
      rw [startsWith_iff.mpr ⟨_, rfl⟩] at h
      cases h
    simp [AList.lookup_eq_none.mpr hg]
  other _ _ := rfl

theorem Refines.mem_tableKeys (hR : Refines tableName db₀ t db)
    (h₀ : ∀ key ∈ db₀.keys, startsWith key (tablePrefix tableName) = false) {key : String} :
    key ∈ getAllPacketReplicationTableEntryKeys tableName db ↔
      ∃ g e, t.entry g = some e ∧ key = tablePrefix tableName ++ hex g := by
  rw [mem_getAllPacketReplicationTableEntryKeys]
  constructor
  · rintro ⟨hmem, rest, rfl⟩
    have hsome := AList.lookup_isSome.mpr (AList.mem_keys.mpr hmem)
    by_cases hform : ∃ g, rest = hex g
    · obtain ⟨g, rfl⟩ := hform
      rw [hR.group g, Option.isSome_map'] at hsome
      obtain ⟨e, he⟩ := Option.isSome_iff_exists.mp hsome
      exact ⟨g, e, he, rfl⟩
    · have hnot : tablePrefix tableName ++ rest ∉ db₀ := fun h => by
        have h' := h₀ _ (AList.mem_keys.mp h)
        rw [startsWith_iff.mpr ⟨_, rfl⟩] at h'
        cases h'
      rw [hR.other _ fun g h => hform ⟨g, append_left_cancel h⟩,
        AList.lookup_eq_none.mpr hnot] at hsome
      cases hsome
  · rintro ⟨g, e, he, rfl⟩
    refine ⟨AList.mem_keys.mp (AList.lookup_isSome.mp ?_), _, rfl⟩
    rw [hR.group g, he]
    rfl

end

theorem GroupTable.run_empty_entry_eq_some
    {updates : List (UpdateType × IrPacketReplicationEngineEntry)}
    (hupdates : ∀ u ∈ updates, u.1 = .INSERT ∨ u.1 = .MODIFY ∨ u.1 = .DELETE)
    {g : UInt32} {e : IrPacketReplicationEngineEntry} :
    (GroupTable.empty.run updates).entry g = some e ↔
      ∃ u, lastUpdate updates g = some u ∧ u.1 ≠ .DELETE ∧ u.2 = e := by
  rw [GroupTable.run_entry _ _ hupdates]
  cases lastUpdate updates g with
  | none => simp
  | some u => by_cases hu : u.1 = .DELETE <;> simp [hu]

/-- **The store agrees with the abstract group map over every run of updates.** Start from any
store with no key under `TablePrefix()` and serialize and apply any sequence of `INSERT`,
`MODIFY` and `DELETE` updates. The prefixed keys are then distinct, one per group whose last
update is not a `DELETE` (distinct groups, distinct keys), that key holds the fields
`CreateEntryForInsert` built from the last entry, and every key of another table is as it was. -/
theorem applyUpdates_spec (tableName : String) (db₀ : AppDb)
    (h₀ : ∀ key ∈ db₀.keys, startsWith key (tablePrefix tableName) = false)
    (updates : List (UpdateType × IrPacketReplicationEngineEntry))
    (hupdates : ∀ u ∈ updates, u.1 = .INSERT ∨ u.1 = .MODIFY ∨ u.1 = .DELETE) :
    (getAllPacketReplicationTableEntryKeys tableName (applyUpdates tableName db₀ updates)).Nodup ∧
    (∀ key, key ∈ getAllPacketReplicationTableEntryKeys tableName
        (applyUpdates tableName db₀ updates) ↔
      ∃ g u, lastUpdate updates g = some u ∧ u.1 ≠ .DELETE ∧
        key = tablePrefix tableName ++ irMulticastGroupEntryToAppDbKey u.2.multicastGroupEntry) ∧
    (∀ g₁ g₂ u₁ u₂, lastUpdate updates g₁ = some u₁ → lastUpdate updates g₂ = some u₂ →
      irMulticastGroupEntryToAppDbKey u₁.2.multicastGroupEntry =
        irMulticastGroupEntryToAppDbKey u₂.2.multicastGroupEntry → g₁ = g₂) ∧
    (∀ g u, lastUpdate updates g = some u → u.1 ≠ .DELETE →
      ∀ kfv ∈ (createEntryForInsert tableName u.2 []).2,
        (applyUpdates tableName db₀ updates).lookup kfv.key = some kfv.fieldsValues) ∧
    ∀ key, startsWith key (tablePrefix tableName) = false →
      (applyUpdates tableName db₀ updates).lookup key = db₀.lookup key := by
  have hR := (refines_empty h₀).applyUpdates updates hupdates
  have hlive := fun g e => @GroupTable.run_empty_entry_eq_some updates hupdates g e
  refine ⟨(AList.keys_nodup _).filter _, fun key => ?_, ?_, ?_, ?_⟩
  · rw [hR.mem_tableKeys h₀]
    constructor
    · rintro ⟨g, e, he, rfl⟩
      obtain ⟨u, hu, hdel, rfl⟩ := (hlive g e).mp he
      exact ⟨g, u, hu, hdel,
        by rw [irMulticastGroupEntryToAppDbKey, ← groupId_of_lastUpdate hu]; rfl⟩
    · rintro ⟨g, u, hu, hdel, rfl⟩
      exact ⟨g, u.2, (hlive g u.2).mpr ⟨u, hu, hdel, rfl⟩,
        by rw [irMulticastGroupEntryToAppDbKey, ← groupId_of_lastUpdate hu]; rfl⟩
  · intro g₁ g₂ u₁ u₂ h₁ h₂ hkey
    rw [← groupId_of_lastUpdate h₁, ← groupId_of_lastUpdate h₂]
    exact hex_injective hkey
  · intro g u hu hdel kfv hkfv
    simp only [createEntryForInsert, appendEntry, List.nil_append, List.mem_singleton] at hkfv
    subst hkfv
    rw [getRedisPacketReplicationTableKey_eq, groupId_of_lastUpdate hu, hR.group g,
      (hlive g u.2).mpr ⟨u, hu, hdel, rfl⟩]
    rfl
  · intro key hkey
    refine hR.other key fun g h => ?_
    rw [h, startsWith_iff.mpr ⟨_, rfl⟩] at hkey
    cases hkey

theorem applyUpdates_spec_insert_modify_delete :
    (∀ key ∈ ((∅ : AppDb).insert "ROUTE_TABLE:10.0.0.0/8" [("nexthop", "1")]).keys,
      startsWith key (tablePrefix "REPLICATION_IP_MULTICAST_TABLE") = false) ∧
    (∀ u ∈ [(UpdateType.INSERT, (⟨⟨10, [⟨"Ethernet0", 0⟩]⟩⟩ : IrPacketReplicationEngineEntry)),
        (.MODIFY, ⟨⟨7, [⟨"Ethernet4", 1⟩]⟩⟩), (.DELETE, ⟨⟨10, []⟩⟩)],
      u.1 = .INSERT ∨ u.1 = .MODIFY ∨ u.1 = .DELETE) ∧
    let db₀ : AppDb := (∅ : AppDb).insert "ROUTE_TABLE:10.0.0.0/8" [("nexthop", "1")]
    let updates : List (UpdateType × IrPacketReplicationEngineEntry) :=
      [(.INSERT, ⟨⟨10, [⟨"Ethernet0", 0⟩]⟩⟩), (.MODIFY, ⟨⟨7, [⟨"Ethernet4", 1⟩]⟩⟩),
        (.DELETE, ⟨⟨10, []⟩⟩)]
    let db := applyUpdates "REPLICATION_IP_MULTICAST_TABLE" db₀ updates
    (getAllPacketReplicationTableEntryKeys "REPLICATION_IP_MULTICAST_TABLE" db).Nodup ∧
    (∀ key, key ∈ getAllPacketReplicationTableEntryKeys "REPLICATION_IP_MULTICAST_TABLE" db ↔
      ∃ g u, lastUpdate updates g = some u ∧ u.1 ≠ .DELETE ∧
        key = tablePrefix "REPLICATION_IP_MULTICAST_TABLE" ++
          irMulticastGroupEntryToAppDbKey u.2.multicastGroupEntry) ∧
    (∀ g₁ g₂ u₁ u₂, lastUpdate updates g₁ = some u₁ → lastUpdate updates g₂ = some u₂ →
      irMulticastGroupEntryToAppDbKey u₁.2.multicastGroupEntry =
        irMulticastGroupEntryToAppDbKey u₂.2.multicastGroupEntry → g₁ = g₂) ∧
    (∀ g u, lastUpdate updates g = some u → u.1 ≠ .DELETE →
      ∀ kfv ∈ (createEntryForInsert "REPLICATION_IP_MULTICAST_TABLE" u.2 []).2,
        db.lookup kfv.key = some kfv.fieldsValues) ∧
    ∀ key, startsWith key (tablePrefix "REPLICATION_IP_MULTICAST_TABLE") = false →
      db.lookup key = db₀.lookup key :=
  have h₀ : ∀ key ∈ ((∅ : AppDb).insert "ROUTE_TABLE:10.0.0.0/8" [("nexthop", "1")]).keys,
      startsWith key (tablePrefix "REPLICATION_IP_MULTICAST_TABLE") = false := by decide
  have hupdates : ∀ u ∈ [(UpdateType.INSERT,
        (⟨⟨10, [⟨"Ethernet0", 0⟩]⟩⟩ : IrPacketReplicationEngineEntry)),
        (.MODIFY, ⟨⟨7, [⟨"Ethernet4", 1⟩]⟩⟩), (.DELETE, ⟨⟨10, []⟩⟩)],
      u.1 = .INSERT ∨ u.1 = .MODIFY ∨ u.1 = .DELETE := by decide
  ⟨h₀, hupdates, applyUpdates_spec _ _ h₀ _ hupdates⟩

end PacketReplication
