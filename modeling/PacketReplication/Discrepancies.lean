import PacketReplication.Compare

/-!
# The comparison reports exactly the differences

The comparison's contract is stated over each side's map from group id to the replica set of
the last entity with that id (`replicaMap`). A `Discrepancy` is one difference between two such
maps: a group one side lacks, or, for a group both have, a replica one side lacks.
`Discrepancy.message` is the message the code writes for it.

`comparePacketReplicationTableEntries_exact`: the result lists the message of each discrepancy
once and nothing else, distinct discrepancies have distinct messages, and the result is empty
exactly when the two maps are equal. The proof reads the result through
`comparePacketReplicationTableEntries_eq`; what keeps replicas from being merged is that a
`port_instance` string determines its replica (`portInstance_injective`).
-/

namespace PacketReplication

/-! ## The abstract comparison -/

/-- The contract's map of one side: each group id to the set of replicas, as `(port, instance)`
pairs, of the last entity with that id. -/
def replicaMap (entries : List IrEntity) (groupId : UInt32) : Option (Finset IrReplica) :=
  (lastEntity entries groupId).map fun entity =>
    entity.packetReplicationEngineEntry.multicastGroupEntry.replicas.toFinset

/-- One difference between the two sides. -/
inductive Discrepancy
  | missingGroup (side : Side) (groupId : UInt32)
  | missingReplica (side : Side) (replica : IrReplica) (groupId : UInt32)
deriving DecidableEq, Repr

/-- The message the comparison writes for a discrepancy. -/
def Discrepancy.message : Discrepancy → String
  | .missingGroup side groupId => missingGroupMessage side groupId
  | .missingReplica side replica groupId =>
    missingReplicaMessage side (portInstance replica) groupId

/-- The discrepancies between an App DB map and a cache map: the side named is the one that
lacks the group or the replica. -/
def IsDiscrepancy (mapAppDb mapCache : UInt32 → Option (Finset IrReplica)) :
    Discrepancy → Prop
  | .missingGroup .cache g => (mapAppDb g).isSome ∧ mapCache g = none
  | .missingGroup .appDb g => mapAppDb g = none ∧ (mapCache g).isSome
  | .missingReplica .cache r g =>
    ∃ sa sc, mapAppDb g = some sa ∧ mapCache g = some sc ∧ r ∈ sa \ sc
  | .missingReplica .appDb r g =>
    ∃ sa sc, mapAppDb g = some sa ∧ mapCache g = some sc ∧ r ∈ sc \ sa

theorem Discrepancy.message_injective : Function.Injective Discrepancy.message := by
  rintro (⟨s, g⟩ | ⟨s, r, g⟩) (⟨s', g'⟩ | ⟨s', r', g'⟩) h <;> simp only [message] at h
  · obtain ⟨rfl, rfl⟩ := missingGroupMessage_inj.1 h
    rfl
  · exact absurd h (missingGroupMessage_ne_missingReplicaMessage _ _ _ _ _)
  · exact absurd h.symm (missingGroupMessage_ne_missingReplicaMessage _ _ _ _ _)
  · obtain ⟨rfl, hr, rfl⟩ := missingReplicaMessage_inj.1 h
    rw [portInstance_injective hr]

theorem forall_not_isDiscrepancy_iff {mapAppDb mapCache : UInt32 → Option (Finset IrReplica)} :
    (∀ d, ¬IsDiscrepancy mapAppDb mapCache d) ↔ mapAppDb = mapCache := by
  constructor
  · intro h
    funext g
    cases ha : mapAppDb g <;> cases hc : mapCache g
    · rfl
    · exact absurd (by simp [IsDiscrepancy, ha, hc]) (h (.missingGroup .appDb g))
    · exact absurd (by simp [IsDiscrepancy, ha, hc]) (h (.missingGroup .cache g))
    · exact congrArg some (Finset.ext fun r =>
        ⟨fun hr => of_not_not fun hr' => h (.missingReplica .cache r g)
          ⟨_, _, ha, hc, Finset.mem_sdiff.2 ⟨hr, hr'⟩⟩,
        fun hr => of_not_not fun hr' => h (.missingReplica .appDb r g)
          ⟨_, _, ha, hc, Finset.mem_sdiff.2 ⟨hr, hr'⟩⟩⟩)
  · rintro rfl (⟨_ | _, g⟩ | ⟨_ | _, r, g⟩) hd <;> simp only [IsDiscrepancy] at hd
    · exact Option.isSome_iff_ne_none.1 hd.1 hd.2
    · exact Option.isSome_iff_ne_none.1 hd.2 hd.1
    all_goals
      obtain ⟨sa, sc, ha, hc, hr⟩ := hd
      cases ha.symm.trans hc
      simp at hr

/-! ## The messages of the code -/

theorem mem_map_setDifference {x y : IrMulticastGroupEntry} {f : String → String} {m : String} :
    m ∈ (setDifference StringLt (portInstanceSet x) (portInstanceSet y)).map f ↔
      ∃ r ∈ x.replicas, r ∉ y.replicas ∧ f (portInstance r) = m := by
  rw [setDifference_eq_filter (portInstanceSet_sorted x) (portInstanceSet_sorted y)]
  simp only [List.mem_map, List.mem_filter, mem_portInstanceSet, decide_eq_true_eq]
  constructor
  · rintro ⟨_, ⟨⟨r, hr, rfl⟩, hy⟩, rfl⟩
    exact ⟨r, hr, fun h => hy ⟨r, h, rfl⟩, rfl⟩
  · rintro ⟨r, hr, hy, rfl⟩
    exact ⟨_, ⟨⟨r, hr, rfl⟩, fun ⟨r', hr', he⟩ => hy (portInstance_injective he ▸ hr')⟩, rfl⟩

theorem mem_portInstanceMap {entries : List IrEntity} {p : UInt32 × List String} :
    p ∈ portInstanceMap entries ↔ ∃ entity, lastEntity entries p.1 = some entity ∧
      portInstanceSet entity.packetReplicationEngineEntry.multicastGroupEntry = p.2 := by
  rw [mem_iff_lookup_eq_some (portInstanceMap_sorted entries), lookup_portInstanceMap,
    Option.map_eq_some']

theorem mem_keys_portInstanceMap {entries : List IrEntity} {g : UInt32} :
    g ∈ (portInstanceMap entries).map Prod.fst ↔ (lastEntity entries g).isSome := by
  simp only [List.mem_map, mem_portInstanceMap, Option.isSome_iff_exists]
  constructor
  · rintro ⟨p, ⟨entity, h, -⟩, rfl⟩
    exact ⟨entity, h⟩
  · rintro ⟨entity, h⟩
    exact ⟨(g, _), ⟨entity, h, rfl⟩, rfl⟩

theorem mem_groupMessages {entriesCache : List IrEntity} {g : UInt32} {entity : IrEntity}
    {m : String} :
    m ∈ groupMessages (portInstanceMap entriesCache) g
        (portInstanceSet entity.packetReplicationEngineEntry.multicastGroupEntry) ↔
      (lastEntity entriesCache g = none ∧ missingGroupMessage .cache g = m) ∨
      ∃ entityCache, lastEntity entriesCache g = some entityCache ∧
        ((∃ r ∈ entity.packetReplicationEngineEntry.multicastGroupEntry.replicas,
            r ∉ entityCache.packetReplicationEngineEntry.multicastGroupEntry.replicas ∧
            missingReplicaMessage .cache (portInstance r) g = m) ∨
          ∃ r ∈ entityCache.packetReplicationEngineEntry.multicastGroupEntry.replicas,
            r ∉ entity.packetReplicationEngineEntry.multicastGroupEntry.replicas ∧
            missingReplicaMessage .appDb (portInstance r) g = m) := by
  rw [groupMessages, lookup_portInstanceMap]
  cases lastEntity entriesCache g with
  | none => simp [eq_comm]
  | some entityCache =>
    simp only [Option.map_some', List.mem_append, mem_map_setDifference]
    simp

theorem mem_comparePacketReplicationTableEntries {entriesAppDb entriesCache : List IrEntity}
    {m : String} :
    m ∈ comparePacketReplicationTableEntries entriesAppDb entriesCache ↔
      ∃ d, IsDiscrepancy (replicaMap entriesAppDb) (replicaMap entriesCache) d ∧
        d.message = m := by
  rw [comparePacketReplicationTableEntries_eq, comparePortInstanceMaps, List.mem_append,
    List.mem_flatMap, List.mem_map]
  simp only [List.mem_filter, decide_eq_true_eq, mem_keys_portInstanceMap,
    lookup_portInstanceMap, Option.map_eq_none']
  constructor
  · rintro (⟨p, hp, hm⟩ | ⟨g, ⟨hc, ha⟩, rfl⟩)
    · obtain ⟨ea, hea, hp₂⟩ := mem_portInstanceMap.1 hp
      rw [← hp₂, mem_groupMessages] at hm
      rcases hm with ⟨hc, rfl⟩ | ⟨ec, hec, ⟨r, hr, hr', rfl⟩ | ⟨r, hr, hr', rfl⟩⟩
      · exact ⟨.missingGroup .cache p.1, by simp [IsDiscrepancy, replicaMap, hea, hc], rfl⟩
      · exact ⟨.missingReplica .cache r p.1,
          by simp [IsDiscrepancy, replicaMap, hea, hec, hr, hr'], rfl⟩
      · exact ⟨.missingReplica .appDb r p.1,
          by simp [IsDiscrepancy, replicaMap, hea, hec, hr, hr'], rfl⟩
    · exact ⟨.missingGroup .appDb g, by simp [IsDiscrepancy, replicaMap, ha, hc], rfl⟩
  · rintro ⟨(⟨_ | _, g⟩ | ⟨_ | _, r, g⟩), hd, rfl⟩ <;>
      simp only [IsDiscrepancy, replicaMap, Option.isSome_map', Option.map_eq_none',
        Option.map_eq_some', Option.isSome_iff_exists] at hd
    · obtain ⟨⟨ea, hea⟩, hc⟩ := hd
      exact .inl ⟨(g, _), mem_portInstanceMap.2 ⟨ea, hea, rfl⟩,
        mem_groupMessages.2 (.inl ⟨hc, rfl⟩)⟩
    · exact .inr ⟨g, ⟨Option.isSome_iff_exists.2 hd.2, hd.1⟩, rfl⟩
    · obtain ⟨_, _, ⟨ea, hea, rfl⟩, ⟨ec, hec, rfl⟩, hr⟩ := hd
      simp only [Finset.mem_sdiff, List.mem_toFinset] at hr
      exact .inl ⟨(g, _), mem_portInstanceMap.2 ⟨ea, hea, rfl⟩,
        mem_groupMessages.2 (.inr ⟨ec, hec, .inl ⟨r, hr.1, hr.2, rfl⟩⟩)⟩
    · obtain ⟨_, _, ⟨ea, hea, rfl⟩, ⟨ec, hec, rfl⟩, hr⟩ := hd
      simp only [Finset.mem_sdiff, List.mem_toFinset] at hr
      exact .inl ⟨(g, _), mem_portInstanceMap.2 ⟨ea, hea, rfl⟩,
        mem_groupMessages.2 (.inr ⟨ec, hec, .inr ⟨r, hr.1, hr.2, rfl⟩⟩)⟩

/-! ## No message twice -/

theorem mem_groupMessages_shape {mapCache : List (UInt32 × List String)} {g : UInt32}
    {portInstanceAppDb : List String} {m : String}
    (h : m ∈ groupMessages mapCache g portInstanceAppDb) :
    m = missingGroupMessage .cache g ∨ ∃ s d, m = missingReplicaMessage s d g := by
  unfold groupMessages at h
  split at h
  · exact .inl (List.mem_singleton.1 h)
  · simp only [List.mem_append, List.mem_map] at h
    rcases h with ⟨d, -, rfl⟩ | ⟨d, -, rfl⟩
    · exact .inr ⟨.cache, d, rfl⟩
    · exact .inr ⟨.appDb, d, rfl⟩

theorem groupId_eq_of_mem_groupMessages {mapCache : List (UInt32 × List String)} {g g' : UInt32}
    {sa sa' : List String} {m : String} (h : m ∈ groupMessages mapCache g sa)
    (h' : m ∈ groupMessages mapCache g' sa') : g = g' := by
  rcases mem_groupMessages_shape h with rfl | ⟨s, d, rfl⟩ <;>
    rcases mem_groupMessages_shape h' with h' | ⟨s', d', h'⟩
  · exact (missingGroupMessage_inj.1 h').2
  · exact absurd h' (missingGroupMessage_ne_missingReplicaMessage _ _ _ _ _)
  · exact absurd h'.symm (missingGroupMessage_ne_missingReplicaMessage _ _ _ _ _)
  · exact (missingReplicaMessage_inj.1 h').2.2

theorem setDifference_nodup {xs ys : List String} (hxs : xs.Sorted StringLt)
    (hys : ys.Sorted StringLt) : (setDifference StringLt xs ys).Nodup := by
  rw [setDifference_eq_filter hxs hys]
  exact hxs.nodup.filter _

theorem groupMessages_nodup {mapCache : List (UInt32 × List String)} {g : UInt32}
    {portInstanceAppDb : List String} (hAppDb : portInstanceAppDb.Sorted StringLt)
    (hCache : ∀ p ∈ mapCache, p.2.Sorted StringLt) :
    (groupMessages mapCache g portInstanceAppDb).Nodup := by
  unfold groupMessages
  split
  · exact List.nodup_singleton _
  · next portInstanceCache hlookup =>
    have hc := hCache _ (mem_of_lookup_eq_some hlookup)
    have inj : ∀ s, Function.Injective (missingReplicaMessage s · g) := fun s _ _ h =>
      (missingReplicaMessage_inj.1 h).2.1
    refine ((setDifference_nodup hAppDb hc).map (inj _)).append
      ((setDifference_nodup hc hAppDb).map (inj _)) ?_
    rintro _ hm hm'
    obtain ⟨d, -, rfl⟩ := List.mem_map.1 hm
    obtain ⟨d', -, h⟩ := List.mem_map.1 hm'
    exact absurd (missingReplicaMessage_inj.1 h).1 (by decide)

theorem comparePortInstanceMaps_nodup {mapAppDb mapCache : List (UInt32 × List String)}
    (hAppDb : mapAppDb.Sorted (fun a b => a.1 < b.1))
    (hCache : mapCache.Sorted (fun a b => a.1 < b.1))
    (hsAppDb : ∀ p ∈ mapAppDb, p.2.Sorted StringLt)
    (hsCache : ∀ p ∈ mapCache, p.2.Sorted StringLt) :
    (comparePortInstanceMaps mapAppDb mapCache).Nodup := by
  refine List.Nodup.append ?_ ?_ ?_
  · refine List.nodup_flatMap.2 ⟨fun p hp => groupMessages_nodup (hsAppDb p hp) hsCache, ?_⟩
    exact hAppDb.imp fun hpq _ hp hq => irrefl _ (groupId_eq_of_mem_groupMessages hp hq ▸ hpq)
  · exact ((List.pairwise_map.2 hCache).nodup.filter _).map fun _ _ h =>
      (missingGroupMessage_inj.1 h).2
  · rintro m hm₁ hm₂
    obtain ⟨p, -, hp⟩ := List.mem_flatMap.1 hm₁
    obtain ⟨g, -, rfl⟩ := List.mem_map.1 hm₂
    rcases mem_groupMessages_shape hp with h | ⟨s, d, h⟩
    · exact absurd (missingGroupMessage_inj.1 h).1 (by decide)
    · exact missingGroupMessage_ne_missingReplicaMessage _ _ _ _ _ h

theorem comparePacketReplicationTableEntries_eq_nil_iff
    {entriesAppDb entriesCache : List IrEntity} :
    comparePacketReplicationTableEntries entriesAppDb entriesCache = [] ↔
      replicaMap entriesAppDb = replicaMap entriesCache := by
  rw [List.eq_nil_iff_forall_not_mem, ← forall_not_isDiscrepancy_iff]
  simp only [mem_comparePacketReplicationTableEntries, not_exists, not_and]
  exact ⟨fun h d hd => h _ d hd rfl, fun h _ d hd _ => h d hd⟩

theorem comparePacketReplicationTableEntries_nodup (entriesAppDb entriesCache : List IrEntity) :
    (comparePacketReplicationTableEntries entriesAppDb entriesCache).Nodup := by
  rw [comparePacketReplicationTableEntries_eq]
  exact comparePortInstanceMaps_nodup (portInstanceMap_sorted _) (portInstanceMap_sorted _)
    (fun _ => sorted_of_mem_portInstanceMap) (fun _ => sorted_of_mem_portInstanceMap)

/-! ## The contract -/

/-- **The comparison is exact.** For any App DB and cache entities, the result holds no message
twice and exactly the messages of the discrepancies between the two sides' last-write-wins
replica maps; distinct discrepancies have distinct messages; and the result is empty exactly
when the two maps are equal. -/
theorem comparePacketReplicationTableEntries_exact (entriesAppDb entriesCache : List IrEntity) :
    (comparePacketReplicationTableEntries entriesAppDb entriesCache).Nodup ∧
    (∀ m, m ∈ comparePacketReplicationTableEntries entriesAppDb entriesCache ↔
      ∃ d, IsDiscrepancy (replicaMap entriesAppDb) (replicaMap entriesCache) d ∧
        d.message = m) ∧
    Function.Injective Discrepancy.message ∧
    (comparePacketReplicationTableEntries entriesAppDb entriesCache = [] ↔
      replicaMap entriesAppDb = replicaMap entriesCache) :=
  ⟨comparePacketReplicationTableEntries_nodup _ _,
    fun _ => mem_comparePacketReplicationTableEntries, Discrepancy.message_injective,
    comparePacketReplicationTableEntries_eq_nil_iff⟩

/-! ## Exchanging the two sides -/

/-- The other side. -/
def Side.swap : Side → Side
  | .cache => .appDb
  | .appDb => .cache

/-- The same difference seen with the App DB and the cache exchanged. -/
def Discrepancy.swap : Discrepancy → Discrepancy
  | .missingGroup side groupId => .missingGroup side.swap groupId
  | .missingReplica side replica groupId => .missingReplica side.swap replica groupId

theorem isDiscrepancy_swap {mapAppDb mapCache : UInt32 → Option (Finset IrReplica)}
    (d : Discrepancy) :
    IsDiscrepancy mapCache mapAppDb d.swap ↔ IsDiscrepancy mapAppDb mapCache d := by
  rcases d with ⟨_ | _, g⟩ | ⟨_ | _, r, g⟩ <;>
    simp only [Discrepancy.swap, Side.swap, IsDiscrepancy]
  · exact and_comm
  · exact and_comm
  all_goals exact ⟨fun ⟨sc, sa, hc, ha, hr⟩ => ⟨sa, sc, ha, hc, hr⟩,
    fun ⟨sa, sc, ha, hc, hr⟩ => ⟨sc, sa, hc, ha, hr⟩⟩

/-- **Comparing the other way round reports the same facts with the roles exchanged.** A
difference is reported when the App DB entities are compared with the cache entities exactly
when it is reported, with the other side named, when the two lists are passed the other way
round. -/
theorem comparePacketReplicationTableEntries_swap (entriesAppDb entriesCache : List IrEntity)
    (d : Discrepancy) :
    d.message ∈ comparePacketReplicationTableEntries entriesAppDb entriesCache ↔
      d.swap.message ∈ comparePacketReplicationTableEntries entriesCache entriesAppDb := by
  simp only [mem_comparePacketReplicationTableEntries, Discrepancy.message_injective.eq_iff,
    exists_eq_right, isDiscrepancy_swap]

end PacketReplication
