import PacketReplication.Determinism

/-!
# The comparison's output, message for message

`auditReport` says what the comparison writes as a function of the two sides' replica maps
alone, order included: for each group either side holds, in ascending group id, the group's
discrepancies when the App DB holds it (the cache lacks the group; or the replicas the cache
lacks, then those the App DB lacks, each listed in `std::string` order of their `port_instance`
strings); then, ascending again, one discrepancy for each group only the cache holds.

* `comparePacketReplicationTableEntries_eq_auditReport`: the comparison writes the messages of
  `auditReport`, one for one and in its order.
* `comparePacketReplicationTableEntries_perm_swap`: comparing the other way round writes the
  same discrepancies with the sides exchanged, in another order, so the two directions report
  the same number of differences.

Proof. The comparison is `comparePortInstanceMaps` of the two `portInstanceMap`s
(`comparePacketReplicationTableEntries_eq`). Each list on either side is strictly sorted, the
btree contents by construction and `Finset.sort` by definition, so each equation reduces to one
of members (`eq_of_sorted_of_mem_iff`): the keys of a `portInstanceMap` are the groups where the
replica map is defined (`filter_sort_groupIds`), and `std::set_difference` of two
`port_instance` sets lists the `port_instance` strings of the difference of the replica sets
(`setDifference_portInstanceSet`).
-/

namespace PacketReplication

/-! ## The report -/

/-- The order in which the comparison names a group's replicas: by their `port_instance`
strings, in `std::string` order (`stringLt_iff_lt`). -/
def PortInstanceLe (r r' : IrReplica) : Prop := portInstance r ≤ portInstance r'

instance decidablePortInstanceLe : DecidableRel PortInstanceLe := fun r r' =>
  inferInstanceAs (Decidable (portInstance r ≤ portInstance r'))

instance isTotal_portInstanceLe : IsTotal IrReplica PortInstanceLe :=
  ⟨fun r r' => le_total (portInstance r) (portInstance r')⟩

instance isTrans_portInstanceLe : IsTrans IrReplica PortInstanceLe := ⟨fun _ _ _ => le_trans⟩

instance isAntisymm_portInstanceLe : IsAntisymm IrReplica PortInstanceLe :=
  ⟨fun _ _ h h' => portInstance_injective (le_antisymm h h')⟩

/-- The replicas of `a` that `c` lacks, in the order the comparison names them. -/
def missingReplicas (a c : Finset IrReplica) : List IrReplica := (a \ c).sort PortInstanceLe

/-- The discrepancies of a group the App DB holds with the replicas `a`. -/
def groupReport (mapCache : UInt32 → Option (Finset IrReplica)) (groupId : UInt32)
    (a : Finset IrReplica) : List Discrepancy :=
  match mapCache groupId with
  | none => [.missingGroup .cache groupId]
  | some c =>
    (missingReplicas a c).map (.missingReplica .cache · groupId) ++
      (missingReplicas c a).map (.missingReplica .appDb · groupId)

/-- The discrepancies between two replica maps whose groups are among `groups`, in the order
the comparison reports them: each group the App DB holds, ascending, with its discrepancies;
then each group only the cache holds, ascending. -/
def auditReport (groups : Finset UInt32)
    (mapAppDb mapCache : UInt32 → Option (Finset IrReplica)) : List Discrepancy :=
  (groups.sort (· ≤ ·)).flatMap (fun groupId =>
      (mapAppDb groupId).elim [] (groupReport mapCache groupId)) ++
    ((groups.sort (· ≤ ·)).filter fun groupId =>
      mapAppDb groupId = none ∧ (mapCache groupId).isSome).map (.missingGroup .appDb)

/-- The group ids of a side's entities. -/
def groupIds (entries : List IrEntity) : Finset UInt32 :=
  (entries.map fun entity => entity.packetReplicationEngineEntry.groupId).toFinset

/-! ## Sorted lists -/

theorem sort_uint32_sorted_lt (s : Finset UInt32) : (s.sort (· ≤ ·)).Sorted (· < ·) :=
  ((Finset.sort_sorted _ s).and (Finset.sort_nodup _ s)).imp fun ⟨h, hne⟩ =>
    Nat.lt_of_le_of_ne h fun e => hne (UInt32.toNat.inj e)

theorem missingReplicas_sorted (a c : Finset IrReplica) :
    ((missingReplicas a c).map portInstance).Sorted StringLt :=
  List.pairwise_map.2 (((Finset.sort_sorted _ _).and (Finset.sort_nodup _ _)).imp
    fun ⟨h, hne⟩ => stringLt_iff_lt.2 (lt_of_le_of_ne h fun e => hne (portInstance_injective e)))

theorem flatMap_filter_of_forall_nil {α β : Type} {f : α → List β} (p : α → Bool)
    (h : ∀ a, p a = false → f a = []) : ∀ l : List α, (l.filter p).flatMap f = l.flatMap f
  | [] => rfl
  | a :: l => by
    cases ha : p a <;> simp [List.filter_cons, ha, h a, flatMap_filter_of_forall_nil p h l]

theorem mem_groupIds {entries : List IrEntity} {g : UInt32} :
    g ∈ groupIds entries ↔ (lastEntity entries g).isSome := by
  simp [groupIds, lastEntity, List.find?_isSome]

/-! ## The comparison writes the report -/

theorem setDifference_portInstanceSet (x y : IrMulticastGroupEntry) :
    setDifference StringLt (portInstanceSet x) (portInstanceSet y) =
      (missingReplicas x.replicas.toFinset y.replicas.toFinset).map portInstance := by
  rw [setDifference_eq_filter (portInstanceSet_sorted x) (portInstanceSet_sorted y)]
  refine eq_of_sorted_of_mem_iff (fun _ _ => asymm) ((portInstanceSet_sorted x).filter _)
    (missingReplicas_sorted _ _) fun d => ?_
  simp only [List.mem_filter, mem_portInstanceSet, List.mem_map, missingReplicas,
    Finset.mem_sort, Finset.mem_sdiff, List.mem_toFinset, decide_eq_true_eq]
  constructor
  · rintro ⟨⟨r, hr, rfl⟩, hy⟩
    exact ⟨r, ⟨hr, fun h => hy ⟨r, h, rfl⟩⟩, rfl⟩
  · rintro ⟨r, ⟨hr, hy⟩, rfl⟩
    exact ⟨⟨r, hr, rfl⟩, fun ⟨r', hr', he⟩ => hy (portInstance_injective he ▸ hr')⟩

theorem groupMessages_eq_groupReport {entriesAppDb entriesCache : List IrEntity} {g : UInt32}
    {s : List String} (hp : (g, s) ∈ portInstanceMap entriesAppDb) :
    groupMessages (portInstanceMap entriesCache) g s =
      ((replicaMap entriesAppDb g).elim [] (groupReport (replicaMap entriesCache) g)).map
        Discrepancy.message := by
  obtain ⟨ea, hea, rfl⟩ := mem_portInstanceMap.1 hp
  rw [groupMessages, lookup_portInstanceMap]
  simp only [replicaMap, hea, Option.map_some', Option.elim, groupReport]
  cases lastEntity entriesCache g <;>
    simp [Discrepancy.message, setDifference_portInstanceSet, Function.comp_def]

theorem filter_sort_groupIds (entriesAppDb entriesCache : List IrEntity) :
    ((groupIds entriesAppDb ∪ groupIds entriesCache).sort (· ≤ ·)).filter
        (fun g => (replicaMap entriesAppDb g).isSome) =
      (portInstanceMap entriesAppDb).map Prod.fst := by
  refine eq_of_sorted_of_mem_iff (fun _ _ => Nat.lt_asymm) ((sort_uint32_sorted_lt _).filter _)
    (List.pairwise_map.2 (portInstanceMap_sorted entriesAppDb)) fun g => ?_
  simp only [List.mem_filter, Finset.mem_sort, Finset.mem_union, mem_groupIds,
    mem_keys_portInstanceMap, replicaMap, Option.isSome_map']
  exact ⟨And.right, fun h => ⟨.inl h, h⟩⟩

theorem filter_sort_groupIds_cache (entriesAppDb entriesCache : List IrEntity) :
    ((groupIds entriesAppDb ∪ groupIds entriesCache).sort (· ≤ ·)).filter
        (fun g => replicaMap entriesAppDb g = none ∧ (replicaMap entriesCache g).isSome) =
      ((portInstanceMap entriesCache).map Prod.fst).filter
        (fun g => (portInstanceMap entriesAppDb).lookup g = none) := by
  refine eq_of_sorted_of_mem_iff (fun _ _ => Nat.lt_asymm) ((sort_uint32_sorted_lt _).filter _)
    ((List.pairwise_map.2 (portInstanceMap_sorted entriesCache)).filter _) fun g => ?_
  simp only [List.mem_filter, Finset.mem_sort, Finset.mem_union, mem_groupIds,
    mem_keys_portInstanceMap, lookup_portInstanceMap, replicaMap, Option.isSome_map',
    Option.map_eq_none', decide_eq_true_eq]
  exact ⟨fun ⟨_, ha, hc⟩ => ⟨hc, ha⟩, fun ⟨hc, ha⟩ => ⟨.inr hc, ha, hc⟩⟩

/-- **The comparison writes the report.** For any App DB and cache entities, the comparison's
output is the list of the messages of `auditReport` over the group ids of both sides and their
last-write-wins replica maps, one for one and in the same order. -/
theorem comparePacketReplicationTableEntries_eq_auditReport
    (entriesAppDb entriesCache : List IrEntity) :
    comparePacketReplicationTableEntries entriesAppDb entriesCache =
      (auditReport (groupIds entriesAppDb ∪ groupIds entriesCache) (replicaMap entriesAppDb)
        (replicaMap entriesCache)).map Discrepancy.message := by
  rw [comparePacketReplicationTableEntries_eq, comparePortInstanceMaps, auditReport,
    List.map_append, List.map_flatMap, List.map_map, filter_sort_groupIds_cache]
  congr 1
  rw [← flatMap_filter_of_forall_nil (fun g => (replicaMap entriesAppDb g).isSome)
      fun g hg => by simp [Option.not_isSome_iff_eq_none.1 (by simpa using hg)],
    filter_sort_groupIds, List.flatMap_map]
  exact List.flatMap_congr fun p hp => groupMessages_eq_groupReport hp

/-! ## The other way round -/

theorem Side.swap_swap (s : Side) : s.swap.swap = s := by cases s <;> rfl

theorem Discrepancy.swap_swap (d : Discrepancy) : d.swap.swap = d := by
  rcases d with ⟨s, g⟩ | ⟨s, r, g⟩ <;> simp [Discrepancy.swap, Side.swap_swap]

theorem Discrepancy.swap_injective : Function.Injective Discrepancy.swap :=
  Function.LeftInverse.injective Discrepancy.swap_swap

theorem exists_eq_map_of_forall_mem {α β : Type} {f : α → β} :
    ∀ {l : List β}, (∀ b ∈ l, ∃ a, f a = b) → ∃ as : List α, l = as.map f
  | [], _ => ⟨[], rfl⟩
  | b :: l, h => by
    obtain ⟨a, rfl⟩ := h b (List.mem_cons_self _ _)
    obtain ⟨as, rfl⟩ := exists_eq_map_of_forall_mem fun b hb => h b (List.mem_cons_of_mem _ hb)
    exact ⟨a :: as, rfl⟩

/-- **Comparing the other way round reports the same discrepancies, sides exchanged.** The
output for `(A, C)` is the messages of some discrepancies `ds`; the output for `(C, A)` is a
permutation of the messages of `ds` with the two sides exchanged in each, so both directions
report the same number of differences. -/
theorem comparePacketReplicationTableEntries_perm_swap
    (entriesAppDb entriesCache : List IrEntity) :
    ∃ ds : List Discrepancy,
      comparePacketReplicationTableEntries entriesAppDb entriesCache =
        ds.map Discrepancy.message ∧
      (comparePacketReplicationTableEntries entriesCache entriesAppDb).Perm
        ((ds.map Discrepancy.swap).map Discrepancy.message) ∧
      (comparePacketReplicationTableEntries entriesCache entriesAppDb).length =
        (comparePacketReplicationTableEntries entriesAppDb entriesCache).length := by
  obtain ⟨ds, hds⟩ := exists_eq_map_of_forall_mem fun m hm =>
    (mem_comparePacketReplicationTableEntries.1 hm).imp fun _ hd => hd.2
  have hnodup := comparePacketReplicationTableEntries_nodup entriesAppDb entriesCache
  rw [hds] at hnodup
  -- a discrepancy is in `ds` exactly when it is one of `(A, C)`
  have hmem : ∀ d, d ∈ ds ↔
      IsDiscrepancy (replicaMap entriesAppDb) (replicaMap entriesCache) d := fun d => by
    rw [← List.mem_map_of_injective Discrepancy.message_injective, ← hds,
      mem_comparePacketReplicationTableEntries]
    simp only [Discrepancy.message_injective.eq_iff, exists_eq_right]
  have hperm : (comparePacketReplicationTableEntries entriesCache entriesAppDb).Perm
      ((ds.map Discrepancy.swap).map Discrepancy.message) := by
    refine (List.perm_ext_iff_of_nodup
      (comparePacketReplicationTableEntries_nodup entriesCache entriesAppDb)
      (((hnodup.of_map _).map Discrepancy.swap_injective).map
        Discrepancy.message_injective)).2 fun m => ?_
    simp only [mem_comparePacketReplicationTableEntries, List.map_map, List.mem_map,
      Function.comp, hmem]
    constructor
    · rintro ⟨d, hd, rfl⟩
      exact ⟨d.swap, (isDiscrepancy_swap d.swap).1 (by rwa [Discrepancy.swap_swap]),
        by rw [Discrepancy.swap_swap]⟩
    · rintro ⟨d, hd, rfl⟩
      exact ⟨d.swap, (isDiscrepancy_swap d).2 hd, rfl⟩
  refine ⟨ds, hds, hperm, ?_⟩
  simp only [hperm.length_eq, hds, List.length_map]

end PacketReplication
