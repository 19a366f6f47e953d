import PacketReplication.Store
import PacketReplication.Determinism

/-!
# Writing, reading back and auditing

The three parts of the translation work on one App DB table: the control plane serializes
updates into tuples that the store applies, the reader rebuilds the entries from the table, and
the audit compares what was read with the cache.

`getAllAppDbPacketReplicationTableEntries_applyUpdates` runs them one after another. From a
store with no key under `TablePrefix()`, after any run of supported updates, reading the table
back succeeds and returns exactly the entries of the abstract `GroupTable` the updates produce,
each once; and the audit of what was read against a cache is clean exactly when the cache's
replica map is that table's. The proof goes through the store refinement of `Store` and the
codec round trip of `Reader`.
-/

namespace PacketReplication

open Absl

/-! ## Two facts about lists -/

theorem exists_of_forall₂_of_mem_right {α β : Type} {R : α → β → Prop} {b : β} :
    ∀ {l₁ : List α} {l₂ : List β}, List.Forall₂ R l₁ l₂ → b ∈ l₂ → ∃ a ∈ l₁, R a b
  | [], [], .nil, hb => absurd hb (List.not_mem_nil _)
  | _ :: _, _ :: _, .cons hab h, hb => by
    rcases List.mem_cons.1 hb with rfl | hb
    · exact ⟨_, List.mem_cons_self _ _, hab⟩
    · obtain ⟨a, ha, hr⟩ := exists_of_forall₂_of_mem_right h hb
      exact ⟨a, List.mem_cons_of_mem _ ha, hr⟩

theorem mapM_ok_of_forall {α β ε : Type} {f : α → Except ε β} {P : α → β → Prop} :
    ∀ {xs : List α}, (∀ x ∈ xs, ∃ y, f x = .ok y ∧ P x y) →
      ∃ ys, xs.mapM f = .ok ys ∧ List.Forall₂ P xs ys
  | [], _ => ⟨[], rfl, .nil⟩
  | x :: xs, h => by
    obtain ⟨y, hy, hP⟩ := h x (List.mem_cons_self _ _)
    obtain ⟨ys, hys, hP'⟩ := mapM_ok_of_forall fun x' hx' => h x' (List.mem_cons_of_mem _ hx')
    exact ⟨y :: ys, by rw [List.mapM_cons, hy, hys]; rfl, .cons hP hP'⟩

/-! ## Reading back a refined store -/

section
variable {tableName : String} {db₀ db : AppDb} {t : GroupTable}

theorem Refines.readBack (hR : Refines tableName db₀ t db)
    (h₀ : ∀ key ∈ db₀.keys, startsWith key (tablePrefix tableName) = false) :
    ∀ key ∈ getAllPacketReplicationTableEntryKeys tableName db, ∃ e,
      entryOfKey tableName key (db.get key) = .ok e ∧
        (key = getRedisPacketReplicationTableKey tableName e ∧ ∃ g, t.entry g = some e) := by
  intro key hkey
  obtain ⟨g, e, he, rfl⟩ := (hR.mem_tableKeys h₀).1 hkey
  have hg := t.entry_groupId g e he
  refine ⟨e, ?_, by rw [getRedisPacketReplicationTableKey_eq, hg], g, he⟩
  rw [AppDb.get, hR.group g, he, ← hg]
  exact entryOfKey_insertFieldsValues tableName e

/-- A store refining `t` reads back as the entries `t` holds, each under its own key, in the
order of the keys, no group twice. -/
theorem Refines.readAll (hR : Refines tableName db₀ t db)
    (h₀ : ∀ key ∈ db₀.keys, startsWith key (tablePrefix tableName) = false) :
    ∃ entries, getAllAppDbPacketReplicationTableEntries tableName db = .ok entries ∧
      (entries.map IrPacketReplicationEngineEntry.groupId).Nodup ∧
      ∀ e, e ∈ entries ↔ ∃ g, t.entry g = some e := by
  obtain ⟨entries, hok, hrel⟩ := mapM_ok_of_forall (hR.readBack h₀)
  -- the prefixed keys are the entries' keys, in order
  have hkeys : getAllPacketReplicationTableEntryKeys tableName db =
      entries.map (getRedisPacketReplicationTableKey tableName) := by
    have h := List.forall₂_map_right_iff.2 (hrel.imp fun _ _ h => h.1)
    rwa [List.forall₂_eq_eq_eq] at h
  refine ⟨entries, hok, ?_, fun e => ⟨fun he => ?_, fun ⟨g, he⟩ => ?_⟩⟩
  · have h := (AList.keys_nodup db).filter fun key => startsWith key (tablePrefix tableName)
    rw [← getAllPacketReplicationTableEntryKeys, hkeys] at h
    exact List.Nodup.of_map (tablePrefix tableName ++ hex ·)
      (by simpa [Function.comp_def] using h)
  · obtain ⟨_, -, -, hlive⟩ := exists_of_forall₂_of_mem_right hrel he
    exact hlive
  · have hkey := (hR.mem_tableKeys h₀).2 ⟨g, e, he, rfl⟩
    rw [hkeys] at hkey
    obtain ⟨e', he', hkey'⟩ := List.mem_map.1 hkey
    obtain ⟨_, -, -, g', hg'⟩ := exists_of_forall₂_of_mem_right hrel he'
    obtain rfl : g' = g := (t.entry_groupId g' e' hg').symm.trans (groupKey_injective hkey')
    exact Option.some.inj (hg'.symm.trans he) ▸ he'

theorem lastEntity_eq_entry {entries : List IrPacketReplicationEngineEntry}
    (hd : (entries.map IrPacketReplicationEngineEntry.groupId).Nodup)
    (hmem : ∀ e, e ∈ entries ↔ ∃ g, t.entry g = some e) (g : UInt32) :
    lastEntity (entries.map .packetReplicationEngine) g =
      (t.entry g).map .packetReplicationEngine := Option.ext fun entity => by
  have hd' : ((entries.map IrEntity.packetReplicationEngine).map
      fun e => e.packetReplicationEngineEntry.groupId).Nodup := by
    simpa [Function.comp_def, IrEntity.packetReplicationEngineEntry] using hd
  simp only [Option.mem_def, lastEntity_eq_some_iff hd', List.mem_map, Option.map_eq_some']
  constructor
  · rintro ⟨⟨e, he, rfl⟩, rfl⟩
    obtain ⟨g', hg'⟩ := (hmem e).1 he
    exact ⟨e, (t.entry_groupId g' e hg').symm ▸ hg', rfl⟩
  · rintro ⟨e, he, rfl⟩
    exact ⟨⟨e, (hmem e).2 ⟨g, he⟩, rfl⟩, t.entry_groupId g e he⟩

end

/-! ## The three steps in a row -/

/-- **What the translator writes, the reader reads back and the audit compares.** Start from a
store with no key under `TablePrefix()`, serialize any sequence of `INSERT`, `MODIFY` and
`DELETE` updates and apply the batch. Reading the table then succeeds; it returns exactly the
entries the abstract table of the updates holds (for each group whose last update is not a
`DELETE`, that update's entry: `GroupTable.run_entry`), no group twice; and comparing what was
read with any cache reports nothing exactly when the cache's replica map is the table's. -/
theorem getAllAppDbPacketReplicationTableEntries_applyUpdates (tableName : String) (db₀ : AppDb)
    (h₀ : ∀ key ∈ db₀.keys, startsWith key (tablePrefix tableName) = false)
    (updates : List (UpdateType × IrPacketReplicationEngineEntry))
    (hupdates : ∀ u ∈ updates, u.1 = .INSERT ∨ u.1 = .MODIFY ∨ u.1 = .DELETE) :
    ∃ entries, getAllAppDbPacketReplicationTableEntries tableName
        (applyUpdates tableName db₀ updates) = .ok entries ∧
      (entries.map IrPacketReplicationEngineEntry.groupId).Nodup ∧
      (∀ e, e ∈ entries ↔ ∃ g, (GroupTable.empty.run updates).entry g = some e) ∧
      ∀ entriesCache : List IrEntity,
        comparePacketReplicationTableEntries (entries.map .packetReplicationEngine)
            entriesCache = [] ↔
          replicaMap entriesCache = fun g => ((GroupTable.empty.run updates).entry g).map
            fun e => e.multicastGroupEntry.replicas.toFinset := by
  obtain ⟨entries, hok, hnodup, hmem⟩ :=
    ((refines_empty h₀).applyUpdates updates hupdates).readAll h₀
  refine ⟨entries, hok, hnodup, hmem, fun entriesCache => ?_⟩
  have hmap : replicaMap (entries.map .packetReplicationEngine) = fun g =>
      ((GroupTable.empty.run updates).entry g).map fun e =>
        e.multicastGroupEntry.replicas.toFinset := by
    funext g
    rw [replicaMap, lastEntity_eq_entry hnodup hmem, Option.map_map]
    rfl
  rw [comparePacketReplicationTableEntries_eq_nil_iff, hmap, eq_comm]

theorem getAllAppDbPacketReplicationTableEntries_applyUpdates_modifyDelete :
    (∀ key ∈ ((∅ : AppDb).insert "ROUTE_TABLE:10.0.0.0/8" [("nexthop", "1")]).keys,
      startsWith key (tablePrefix "REPLICATION_IP_MULTICAST_TABLE") = false) ∧
    (∀ u ∈ [(UpdateType.INSERT, (⟨⟨10, [⟨"Ethernet0", 0⟩]⟩⟩ : IrPacketReplicationEngineEntry)),
        (.MODIFY, ⟨⟨7, [⟨"Ethernet4", 1⟩]⟩⟩), (.DELETE, ⟨⟨10, []⟩⟩)],
      u.1 = .INSERT ∨ u.1 = .MODIFY ∨ u.1 = .DELETE) ∧
    let db₀ : AppDb := (∅ : AppDb).insert "ROUTE_TABLE:10.0.0.0/8" [("nexthop", "1")]
    let updates : List (UpdateType × IrPacketReplicationEngineEntry) :=
      [(.INSERT, ⟨⟨10, [⟨"Ethernet0", 0⟩]⟩⟩), (.MODIFY, ⟨⟨7, [⟨"Ethernet4", 1⟩]⟩⟩),
        (.DELETE, ⟨⟨10, []⟩⟩)]
    ∃ entries, getAllAppDbPacketReplicationTableEntries "REPLICATION_IP_MULTICAST_TABLE"
        (applyUpdates "REPLICATION_IP_MULTICAST_TABLE" db₀ updates) = .ok entries ∧
      (entries.map IrPacketReplicationEngineEntry.groupId).Nodup ∧
      (∀ e, e ∈ entries ↔ ∃ g, (GroupTable.empty.run updates).entry g = some e) ∧
      ∀ entriesCache : List IrEntity,
        comparePacketReplicationTableEntries (entries.map .packetReplicationEngine)
            entriesCache = [] ↔
          replicaMap entriesCache = fun g => ((GroupTable.empty.run updates).entry g).map
            fun e => e.multicastGroupEntry.replicas.toFinset :=
  have h₀ : ∀ key ∈ ((∅ : AppDb).insert "ROUTE_TABLE:10.0.0.0/8" [("nexthop", "1")]).keys,
      startsWith key (tablePrefix "REPLICATION_IP_MULTICAST_TABLE") = false := by decide
  have hupdates : ∀ u ∈ [(UpdateType.INSERT,
        (⟨⟨10, [⟨"Ethernet0", 0⟩]⟩⟩ : IrPacketReplicationEngineEntry)),
        (.MODIFY, ⟨⟨7, [⟨"Ethernet4", 1⟩]⟩⟩), (.DELETE, ⟨⟨10, []⟩⟩)],
      u.1 = .INSERT ∨ u.1 = .MODIFY ∨ u.1 = .DELETE := by decide
  ⟨h₀, hupdates, getAllAppDbPacketReplicationTableEntries_applyUpdates _ _ h₀ _ hupdates⟩

end PacketReplication
