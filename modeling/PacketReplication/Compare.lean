import PacketReplication.Reader
import PacketReplication.Ordered

/-!
# Comparing the App DB with the cache

`ComparePacketReplicationTableEntries` puts each side's entities into a `btree_map` by group id,
so the last entity of a group wins, reports each group one side lacks, and compares the groups
both sides have with `ComparePacketReplicationEntities`, which reports each
`<port>_<instance>` string one side's replica set lacks.

`comparePacketReplicationTableEntries_eq` takes the two loops apart: the result is
`comparePortInstanceMaps` of the two sides' `portInstanceMap`s, the maps from group id to the
sorted `port_instance` set of the group's last entity. Beside it, the message lemmas say that a
message determines its side, its kind, its group id and its string (`missingMessage_inj` and
the lemmas after it), and a `port_instance` string its replica (`portInstance_injective`).
-/

namespace PacketReplication

open Absl

/-! ## Messages -/

/-- The two copies compared. -/
inductive Side
  | cache
  | appDb
deriving DecidableEq, Repr

/-- How the messages name a side. -/
def Side.text : Side → String
  | .cache => "Packet replication cache"
  | .appDb => "APP DB"

/-- The shape of every message of the comparison: `<side> is missing <what>`. -/
def missingMessage (side : Side) (what : String) : String := side.text ++ " is missing " ++ what

/-- A group one side lacks: the first loop's
`StrCat("Packet replication cache is missing multicast group ", "ID ", id)` and the second
loop's `StrCat("APP DB is missing multicast group ID ", id)`. -/
def missingGroupMessage (side : Side) (groupId : UInt32) : String :=
  missingMessage side ("multicast group ID " ++ toString groupId)

/-- A replica one side lacks:
`StrCat("Packet replication cache is missing replica ", difference, " for group id ", id)` and
`StrCat("APP DB is missing replica ", difference, " for group id ", id)`. -/
def missingReplicaMessage (side : Side) (difference : String) (groupId : UInt32) : String :=
  missingMessage side ("replica " ++ difference ++ " for group id " ++ toString groupId)

/-! ## The comparison -/

/-- `absl::StrCat(replica.port(), "_", replica.instance())`. -/
def portInstance (replica : IrReplica) : String :=
  replica.port ++ "_" ++ toString replica.instance_

/-- The `absl::btree_set<std::string>` of the `port_instance` strings of a group's replicas. -/
def portInstanceSet (groupEntry : IrMulticastGroupEntry) : List String :=
  groupEntry.replicas.foldl (fun s replica => btreeUpsert StringLt id (portInstance replica) s) []

/-- `ComparePacketReplicationEntities`: appends to `failures` a message for each replica string
of the App DB entity that the cache entity lacks, then one for each that the App DB entity
lacks, both naming the App DB entity's group id. -/
def comparePacketReplicationEntities (entityAppDb entityCache : IrEntity)
    (failures : List String) : List String :=
  let groupEntryAppDb := entityAppDb.packetReplicationEngineEntry.multicastGroupEntry
  let groupEntryCache := entityCache.packetReplicationEngineEntry.multicastGroupEntry
  let portInstanceAppDb := portInstanceSet groupEntryAppDb
  let portInstanceCache := portInstanceSet groupEntryCache
  let failures := failures ++
    (setDifference StringLt portInstanceAppDb portInstanceCache).map fun difference =>
      missingReplicaMessage .cache difference groupEntryAppDb.multicastGroupId
  failures ++ (setDifference StringLt portInstanceCache portInstanceAppDb).map fun difference =>
    missingReplicaMessage .appDb difference groupEntryAppDb.multicastGroupId

/-- A `btree_map<uint32_t, IrEntity>` filled by `map[group id] = entry` for each entry in
order. -/
def groupMap (entries : List IrEntity) : List (UInt32 × IrEntity) :=
  entries.foldl (fun map entry =>
    btreeUpsert (· < ·) Prod.fst (entry.packetReplicationEngineEntry.groupId, entry) map) []

/-- `ComparePacketReplicationTableEntries`. -/
def comparePacketReplicationTableEntries (entriesAppDb entriesCache : List IrEntity) :
    List String :=
  let mapAppDb := groupMap entriesAppDb
  let mapCache := groupMap entriesCache
  let failures := mapAppDb.foldl (fun failures idAndEntry =>
    match mapCache.lookup idAndEntry.1 with
    | none => failures ++ [missingGroupMessage .cache idAndEntry.1]
    | some entryCache => comparePacketReplicationEntities idAndEntry.2 entryCache failures) []
  mapCache.foldl (fun failures idAndEntry =>
    if mapAppDb.lookup idAndEntry.1 = none then
      failures ++ [missingGroupMessage .appDb idAndEntry.1]
    else failures) failures

/-! ## The comparison as a function of the two `port_instance` maps -/

/-- The last entity of `entries` with group id `groupId`. -/
def lastEntity (entries : List IrEntity) (groupId : UInt32) : Option IrEntity :=
  entries.reverse.find? fun entry => entry.packetReplicationEngineEntry.groupId = groupId

/-- A side's groups in group-id order, each with the `port_instance` set of its last entity. -/
def portInstanceMap (entries : List IrEntity) : List (UInt32 × List String) :=
  (groupMap entries).map fun idAndEntry =>
    (idAndEntry.1, portInstanceSet idAndEntry.2.packetReplicationEngineEntry.multicastGroupEntry)

/-- The messages about one App DB group, against the cache's map. -/
def groupMessages (mapCache : List (UInt32 × List String)) (groupId : UInt32)
    (portInstanceAppDb : List String) : List String :=
  match mapCache.lookup groupId with
  | none => [missingGroupMessage .cache groupId]
  | some portInstanceCache =>
    (setDifference StringLt portInstanceAppDb portInstanceCache).map
        (missingReplicaMessage .cache · groupId) ++
      (setDifference StringLt portInstanceCache portInstanceAppDb).map
        (missingReplicaMessage .appDb · groupId)

/-- The comparison of two `port_instance` maps: the messages about each App DB group in group-id
order, then one for each group only the cache has, in group-id order. -/
def comparePortInstanceMaps (mapAppDb mapCache : List (UInt32 × List String)) : List String :=
  mapAppDb.flatMap (fun p => groupMessages mapCache p.1 p.2) ++
    ((mapCache.map Prod.fst).filter fun groupId => mapAppDb.lookup groupId = none).map
      (missingGroupMessage .appDb)

/-! ## What a message determines -/

theorem append_ne_of_head {a b x y : String} (ha : a.data ≠ []) (hb : b.data ≠ [])
    (h : a.data.head? ≠ b.data.head?) : a ++ x ≠ b ++ y := fun e => h <| by
  simpa only [String.data_append, List.head?_append_of_ne_nil _ ha,
    List.head?_append_of_ne_nil _ hb] using congrArg (fun s : String => s.data.head?) e

theorem Side.text_append_inj {s s' : Side} {a b : String} (h : s.text ++ a = s'.text ++ b) :
    s = s' ∧ a = b := by
  cases s <;> cases s'
  · exact ⟨rfl, append_left_cancel h⟩
  · exact absurd h (append_ne_of_head (by decide) (by decide) (by decide))
  · exact absurd h (append_ne_of_head (by decide) (by decide) (by decide))
  · exact ⟨rfl, append_left_cancel h⟩

theorem missingMessage_inj {s s' : Side} {w w' : String} :
    missingMessage s w = missingMessage s' w' ↔ s = s' ∧ w = w' := by
  refine ⟨fun h => ?_, fun ⟨hs, hw⟩ => hs ▸ hw ▸ rfl⟩
  rw [missingMessage, missingMessage, String.append_assoc, String.append_assoc] at h
  obtain ⟨rfl, hw⟩ := Side.text_append_inj h
  exact ⟨rfl, append_left_cancel hw⟩

theorem missingGroupMessage_inj {s s' : Side} {g g' : UInt32} :
    missingGroupMessage s g = missingGroupMessage s' g' ↔ s = s' ∧ g = g' := by
  rw [missingGroupMessage, missingGroupMessage, missingMessage_inj]
  exact and_congr_right fun _ =>
    ⟨fun h => toString_injective (append_left_cancel h), fun h => h ▸ rfl⟩

theorem missingReplicaMessage_inj {s s' : Side} {d d' : String} {g g' : UInt32} :
    missingReplicaMessage s d g = missingReplicaMessage s' d' g' ↔ s = s' ∧ d = d' ∧ g = g' := by
  refine ⟨fun h => ?_, fun ⟨hs, hd, hg⟩ => hs ▸ hd ▸ hg ▸ rfl⟩
  rw [missingReplicaMessage, missingReplicaMessage, missingMessage_inj] at h
  obtain ⟨rfl, h⟩ := h
  simp only [String.append_assoc] at h
  -- split at the space before the group id
  have split : ∀ (e : String) (t : UInt32), (e ++ (" for group id " ++ toString t)).data =
      (e.data ++ " for group id".data) ++ ' ' :: (toString t).data := by
    intro e t
    simp [String.data_append]
  have hdata := congrArg String.data (append_left_cancel h)
  rw [split, split] at hdata
  obtain ⟨hd, hg⟩ := append_cons_inj hdata (space_not_mem_toString g) (space_not_mem_toString g')
  exact ⟨rfl, String.ext (List.append_cancel_right hd), toString_injective (String.ext hg)⟩

theorem missingGroupMessage_ne_missingReplicaMessage (s s' : Side) (g g' : UInt32)
    (d : String) : missingGroupMessage s g ≠ missingReplicaMessage s' d g' := by
  rw [missingGroupMessage, missingReplicaMessage, Ne, missingMessage_inj]
  simp only [String.append_assoc]
  exact fun ⟨_, h⟩ => append_ne_of_head (by decide) (by decide) (by decide) h

theorem portInstance_injective : Function.Injective portInstance := by
  rintro ⟨p, i⟩ ⟨p', i'⟩ h
  have hdata := congrArg String.data h
  have hsep : "_".data = ['_'] := rfl
  simp only [portInstance, String.data_append, hsep, List.append_assoc,
    List.singleton_append] at hdata
  obtain ⟨hp, hi⟩ :=
    append_cons_inj hdata (underscore_not_mem_toString i) (underscore_not_mem_toString i')
  cases String.ext hp
  cases toString_injective (String.ext hi)
  rfl

/-! ## The two btrees -/

theorem portInstanceSet_sorted (groupEntry : IrMulticastGroupEntry) :
    (portInstanceSet groupEntry).Sorted StringLt :=
  foldl_btreeUpsert_sorted portInstance groupEntry.replicas List.sorted_nil

theorem mem_portInstanceSet {groupEntry : IrMulticastGroupEntry} {d : String} :
    d ∈ portInstanceSet groupEntry ↔ ∃ r ∈ groupEntry.replicas, portInstance r = d := by
  simp [portInstanceSet, mem_foldl_btreeUpsert_id]

theorem portInstance_mem_portInstanceSet {groupEntry : IrMulticastGroupEntry} {r : IrReplica} :
    portInstance r ∈ portInstanceSet groupEntry ↔ r ∈ groupEntry.replicas := by
  rw [mem_portInstanceSet]
  exact ⟨fun ⟨r', hr', h⟩ => portInstance_injective h ▸ hr', fun h => ⟨r, h, rfl⟩⟩

theorem groupMap_sorted (entries : List IrEntity) :
    (groupMap entries).Sorted (fun a b => a.1 < b.1) :=
  foldl_btreeUpsert_sorted _ entries List.sorted_nil

theorem lookup_groupMap (entries : List IrEntity) (groupId : UInt32) :
    (groupMap entries).lookup groupId = lastEntity entries groupId := by
  rw [groupMap, lookup_foldl_btreeUpsert]
  exact Option.orElse_none _

theorem groupId_of_lastEntity {entries : List IrEntity} {groupId : UInt32} {entity : IrEntity}
    (h : lastEntity entries groupId = some entity) :
    entity.packetReplicationEngineEntry.groupId = groupId := by
  simpa using List.find?_some h

theorem portInstanceMap_sorted (entries : List IrEntity) :
    (portInstanceMap entries).Sorted (fun a b => a.1 < b.1) :=
  List.pairwise_map.2 (groupMap_sorted entries)

theorem lookup_portInstanceMap (entries : List IrEntity) (groupId : UInt32) :
    (portInstanceMap entries).lookup groupId = (lastEntity entries groupId).map fun entity =>
      portInstanceSet entity.packetReplicationEngineEntry.multicastGroupEntry := by
  rw [portInstanceMap, ← lookup_groupMap]
  exact lookup_map_snd (fun entity : IrEntity =>
    portInstanceSet entity.packetReplicationEngineEntry.multicastGroupEntry) _ _

theorem sorted_of_mem_portInstanceMap {entries : List IrEntity} {p : UInt32 × List String}
    (h : p ∈ portInstanceMap entries) : p.2.Sorted StringLt := by
  obtain ⟨q, -, rfl⟩ := List.mem_map.1 h
  exact portInstanceSet_sorted _

/-! ## Taking the loops apart -/

theorem foldl_eq_append_flatMap {α β : Type} {step : List β → α → List β}
    (h : ∀ acc x, step acc x = acc ++ step [] x) :
    ∀ (l : List α) (init : List β), l.foldl step init = init ++ l.flatMap (step [])
  | [], init => by simp
  | x :: l, init => by
    rw [List.foldl_cons, foldl_eq_append_flatMap h l, h, List.flatMap_cons, List.append_assoc]

theorem flatMap_ite_singleton {α β : Type} (p : α → Prop) [DecidablePred p] (f : α → β) :
    ∀ l : List α, l.flatMap (fun x => if p x then [f x] else []) = (l.filter fun x => p x).map f
  | [] => rfl
  | x :: l => by by_cases h : p x <;> simp [List.filter_cons, h, flatMap_ite_singleton p f l]

theorem comparePacketReplicationEntities_eq (entityAppDb entityCache : IrEntity)
    (failures : List String) :
    comparePacketReplicationEntities entityAppDb entityCache failures =
      failures ++ comparePacketReplicationEntities entityAppDb entityCache [] := by
  simp [comparePacketReplicationEntities]

/-- **The comparison reads each side only through its `port_instance` map.** The first loop
gives each App DB group's messages in group-id order, the second one message for each group
only the cache has. -/
theorem comparePacketReplicationTableEntries_eq (entriesAppDb entriesCache : List IrEntity) :
    comparePacketReplicationTableEntries entriesAppDb entriesCache =
      comparePortInstanceMaps (portInstanceMap entriesAppDb) (portInstanceMap entriesCache) := by
  simp only [comparePacketReplicationTableEntries]
  rw [foldl_eq_append_flatMap, foldl_eq_append_flatMap, List.nil_append, comparePortInstanceMaps]
  · congr 1
    · conv_rhs => rw [portInstanceMap.eq_1 entriesAppDb, List.flatMap_map]
      refine List.flatMap_congr fun p hp => ?_
      have hg : p.2.packetReplicationEngineEntry.groupId = p.1 := groupId_of_lastEntity <|
        (lookup_groupMap _ _).symm.trans ((mem_iff_lookup_eq_some (groupMap_sorted _)).1 hp)
      rw [groupMessages, lookup_portInstanceMap, ← lookup_groupMap]
      cases (groupMap entriesCache).lookup p.1 <;>
        simp [comparePacketReplicationEntities, IrPacketReplicationEngineEntry.groupId, ← hg]
    · have hkeys : (portInstanceMap entriesCache).map Prod.fst =
          (groupMap entriesCache).map Prod.fst := by
        simp [portInstanceMap]
      have hnone : ∀ g, (portInstanceMap entriesAppDb).lookup g = none ↔
          (groupMap entriesAppDb).lookup g = none := fun g => by
        rw [lookup_portInstanceMap, lookup_groupMap, Option.map_eq_none']
      simp only [List.nil_append, hkeys, hnone, List.filter_map, List.map_map]
      rw [flatMap_ite_singleton]
      rfl
  · intro acc x
    cases (groupMap entriesCache).lookup x.1
    · simp
    · exact comparePacketReplicationEntities_eq _ _ _
  · intro acc x
    split_ifs <;> simp

end PacketReplication
