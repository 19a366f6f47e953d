import PacketReplication.Discrepancies

/-!
# What the comparison's output depends on, and its order

The output of `comparePacketReplicationTableEntries` is a function of the two sides'
last-write-wins replica maps: equal maps give equal `portInstanceMap`s
(`portInstanceMap_eq_of_replicaMap_eq`), and the output reads nothing else
(`comparePacketReplicationTableEntries_eq`). Permuting a side whose group ids are distinct, or
reordering and duplicating the replicas of its entities, leaves its map unchanged.

The order is the two loops': the first writes each App DB group's messages in ascending group
id, the second each group only the cache has, again ascending. So the messages of each
group-level kind are ascending, but every message of the first loop comes before every
`APP DB is missing multicast group ID` message, whatever their group ids.
-/

namespace PacketReplication

open scoped List

/-! ## The output is a function of the replica maps -/

theorem portInstanceSet_eq_of_toFinset_eq {x y : IrMulticastGroupEntry}
    (h : x.replicas.toFinset = y.replicas.toFinset) : portInstanceSet x = portInstanceSet y :=
  eq_of_sorted_of_mem_iff (fun _ _ => asymm) (portInstanceSet_sorted x)
    (portInstanceSet_sorted y) fun d => by
      rw [mem_portInstanceSet, mem_portInstanceSet]
      simp only [← List.mem_toFinset, h]

theorem portInstanceMap_eq_of_replicaMap_eq {entries entries' : List IrEntity}
    (h : replicaMap entries = replicaMap entries') :
    portInstanceMap entries = portInstanceMap entries' :=
  eq_of_lookup_eq (portInstanceMap_sorted entries) (portInstanceMap_sorted entries') fun g => by
    have hg := congrFun h g
    rw [lookup_portInstanceMap, lookup_portInstanceMap]
    simp only [replicaMap] at hg
    cases ha : lastEntity entries g <;> cases hb : lastEntity entries' g <;>
      rw [ha, hb] at hg <;> simp at hg ⊢
    exact portInstanceSet_eq_of_toFinset_eq hg

theorem lastEntity_eq_some_iff {entries : List IrEntity}
    (hd : (entries.map fun e => e.packetReplicationEngineEntry.groupId).Nodup) {g : UInt32}
    {entity : IrEntity} : lastEntity entries g = some entity ↔
      entity ∈ entries ∧ entity.packetReplicationEngineEntry.groupId = g := by
  constructor
  · intro h
    exact ⟨List.mem_reverse.1 (List.mem_of_find?_eq_some h), groupId_of_lastEntity h⟩
  · rintro ⟨he, rfl⟩
    have hsome : (lastEntity entries entity.packetReplicationEngineEntry.groupId).isSome :=
      List.find?_isSome.2 ⟨entity, List.mem_reverse.2 he, by simp⟩
    obtain ⟨e, hfind⟩ := Option.isSome_iff_exists.1 hsome
    rw [hfind, List.inj_on_of_nodup_map hd (List.mem_reverse.1 (List.mem_of_find?_eq_some hfind)) he
        (groupId_of_lastEntity hfind)]

theorem replicaMap_eq_of_perm {entries entries' : List IrEntity} (hp : entries'.Perm entries)
    (hd : (entries.map fun e => e.packetReplicationEngineEntry.groupId).Nodup) :
    replicaMap entries' = replicaMap entries := by
  have hd' := ((hp.map fun e => e.packetReplicationEngineEntry.groupId).nodup_iff).2 hd
  funext g
  have hlast : lastEntity entries' g = lastEntity entries g := Option.ext fun entity =>
    (lastEntity_eq_some_iff hd').trans ((and_congr_left' hp.mem_iff).trans
      (lastEntity_eq_some_iff hd).symm)
  simp only [replicaMap, hlast]

/-- Two entities of one group whose replica lists have the same members: one is the other with
its replicas reordered or duplicated. -/
def SameGroupAndReplicas (entity entity' : IrEntity) : Prop :=
  entity.packetReplicationEngineEntry.groupId = entity'.packetReplicationEngineEntry.groupId ∧
    ∀ r, r ∈ entity.packetReplicationEngineEntry.multicastGroupEntry.replicas ↔
      r ∈ entity'.packetReplicationEngineEntry.multicastGroupEntry.replicas

theorem find?_map_eq_of_forall₂ {α β γ : Type} {p : α → Bool} {q : β → Bool} {f : α → γ}
    {f' : β → γ} {R : α → β → Prop} (hR : ∀ a b, R a b → p a = q b ∧ f a = f' b) :
    ∀ {l : List α} {l' : List β}, List.Forall₂ R l l' → (l.find? p).map f = (l'.find? q).map f'
  | [], [], .nil => rfl
  | a :: _, b :: _, .cons hab h => by
    obtain ⟨hp, hf⟩ := hR a b hab
    by_cases ha : p a
    · simp [List.find?_cons, ha, ← hp, hf]
    · simp [List.find?_cons, ha, ← hp, find?_map_eq_of_forall₂ hR h]

theorem replicaMap_eq_of_forall₂ {entries entries' : List IrEntity}
    (h : List.Forall₂ SameGroupAndReplicas entries' entries) :
    replicaMap entries' = replicaMap entries := by
  funext g
  refine find?_map_eq_of_forall₂ (fun e' e he => ⟨by simp [he.1], ?_⟩)
    (List.forall₂_reverse_iff.2 h)
  ext r
  simp [he.2 r]

/-! ## The order of the messages -/

theorem pair_sublist_append {α : Type} {x y : α} {l₁ l₂ : List α} (h : [x, y] <+ l₁ ++ l₂) :
    [x, y] <+ l₁ ∨ (x ∈ l₁ ∧ y ∈ l₂) ∨ [x, y] <+ l₂ := by
  obtain ⟨r₁, r₂, he, h₁, h₂⟩ := List.sublist_append_iff.1 h
  rcases r₁ with _ | ⟨a, _ | ⟨b, _ | ⟨c, r₁⟩⟩⟩ <;> simp only [List.nil_append,
    List.cons_append, List.cons.injEq] at he
  · exact .inr (.inr (he ▸ h₂))
  · obtain ⟨rfl, rfl⟩ := he
    exact .inr (.inl ⟨h₁.subset (List.mem_singleton_self _), h₂.subset (List.mem_singleton_self _)⟩)
  · obtain ⟨rfl, rfl, rfl⟩ := he
    exact .inl h₁
  · simp at he

theorem pair_sublist_flatMap {α β : Type} {f : α → List β} {x y : β} :
    ∀ {l : List α}, [x, y] <+ l.flatMap f →
      (∃ a ∈ l, [x, y] <+ f a) ∨ ∃ a b, [a, b] <+ l ∧ x ∈ f a ∧ y ∈ f b
  | [], h => by simp at h
  | a :: l, h => by
    rw [List.flatMap_cons] at h
    rcases pair_sublist_append h with h | ⟨hx, hy⟩ | h
    · exact .inl ⟨a, List.mem_cons_self _ _, h⟩
    · obtain ⟨b, hb, hy⟩ := List.mem_flatMap.1 hy
      exact .inr ⟨a, b, (List.singleton_sublist.2 hb).cons₂ a, hx, hy⟩
    · rcases pair_sublist_flatMap h with ⟨b, hb, h⟩ | ⟨b, c, hbc, hx, hy⟩
      · exact .inl ⟨b, List.mem_cons_of_mem _ hb, h⟩
      · exact .inr ⟨b, c, hbc.cons a, hx, hy⟩

theorem rel_of_pair_sublist {α : Type} {r : α → α → Prop} {a b : α} {l : List α}
    (hl : l.Sorted r) (h : [a, b] <+ l) : r a b :=
  List.pairwise_pair.1 (hl.sublist h)

theorem missingGroupMessage_mem_groupMessages {mapCache : List (UInt32 × List String)}
    {g₀ g : UInt32} {portInstanceAppDb : List String} {s : Side}
    (h : missingGroupMessage s g ∈ groupMessages mapCache g₀ portInstanceAppDb) :
    s = .cache ∧ g = g₀ ∧
      groupMessages mapCache g₀ portInstanceAppDb = [missingGroupMessage .cache g₀] := by
  rcases mem_groupMessages_shape h with h' | ⟨_, _, h'⟩
  · obtain ⟨rfl, rfl⟩ := missingGroupMessage_inj.1 h'
    refine ⟨rfl, rfl, ?_⟩
    unfold groupMessages at h ⊢
    split at h
    · rfl
    · simp only [List.mem_append, List.mem_map] at h
      rcases h with ⟨_, -, h⟩ | ⟨_, -, h⟩ <;>
        exact absurd h.symm (missingGroupMessage_ne_missingReplicaMessage _ _ _ _ _)
  · exact absurd h' (missingGroupMessage_ne_missingReplicaMessage _ _ _ _ _)

section
variable {mapAppDb mapCache : List (UInt32 × List String)}

theorem appDbGroup_not_mem_flatMap (g : UInt32) :
    missingGroupMessage .appDb g ∉ mapAppDb.flatMap fun p => groupMessages mapCache p.1 p.2 :=
  fun h => by
    obtain ⟨p, -, hp⟩ := List.mem_flatMap.1 h
    exact absurd (missingGroupMessage_mem_groupMessages hp).1 (by decide)

theorem mem_of_appDbGroups {m : String} {keys : List UInt32}
    (h : m ∈ keys.map (missingGroupMessage .appDb)) : ∃ g, m = missingGroupMessage .appDb g := by
  obtain ⟨g, -, rfl⟩ := List.mem_map.1 h
  exact ⟨g, rfl⟩

theorem missingGroup_lt_of_pair_sublist (hAppDb : mapAppDb.Sorted (fun a b => a.1 < b.1))
    (hCache : mapCache.Sorted (fun a b => a.1 < b.1)) {s : Side} {g g' : UInt32}
    (h : [missingGroupMessage s g, missingGroupMessage s g'] <+
      comparePortInstanceMaps mapAppDb mapCache) : g < g' := by
  rw [comparePortInstanceMaps] at h
  cases s with
  | cache =>
    have notAppDb : ∀ g, missingGroupMessage .cache g ∉
        ((mapCache.map Prod.fst).filter fun g => mapAppDb.lookup g = none).map
          (missingGroupMessage .appDb) := fun g hg => by
      obtain ⟨g', hg'⟩ := mem_of_appDbGroups hg
      exact absurd (missingGroupMessage_inj.1 hg').1 (by decide)
    rcases pair_sublist_append h with h | ⟨-, hy⟩ | h
    · rcases pair_sublist_flatMap h with ⟨p, -, hp⟩ | ⟨p, q, hpq, hx, hy⟩
      · have hlen := hp.length_le
        rw [(missingGroupMessage_mem_groupMessages (hp.subset (List.mem_cons_self _ _))).2.2]
          at hlen
        simp at hlen
      · rw [(missingGroupMessage_mem_groupMessages hx).2.1,
          (missingGroupMessage_mem_groupMessages hy).2.1]
        have hlt := rel_of_pair_sublist hAppDb hpq
        exact hlt
    · exact absurd hy (notAppDb _)
    · exact absurd (h.subset (List.mem_cons_self _ _)) (notAppDb _)
  | appDb =>
    rcases pair_sublist_append h with h | ⟨hx, -⟩ | h
    · exact absurd (h.subset (List.mem_cons_self _ _)) (appDbGroup_not_mem_flatMap _)
    · exact absurd hx (appDbGroup_not_mem_flatMap _)
    · obtain ⟨l, hl, he⟩ := List.sublist_map_iff.1 h
      rcases l with _ | ⟨a, _ | ⟨b, _ | _⟩⟩ <;> simp only [List.map_cons, List.map_nil,
        List.cons.injEq, reduceCtorEq, and_false, and_true] at he
      obtain ⟨ha, hb⟩ := he
      rw [(missingGroupMessage_inj.1 ha).2, (missingGroupMessage_inj.1 hb).2]
      exact rel_of_pair_sublist (List.pairwise_map.2 hCache) (hl.trans (List.filter_sublist _))

theorem appDbGroup_of_pair_sublist {g : UInt32} {m : String}
    (h : [missingGroupMessage .appDb g, m] <+ comparePortInstanceMaps mapAppDb mapCache) :
    ∃ g', m = missingGroupMessage .appDb g' := by
  rw [comparePortInstanceMaps] at h
  rcases pair_sublist_append h with h | ⟨hx, -⟩ | h
  · exact absurd (h.subset (List.mem_cons_self _ _)) (appDbGroup_not_mem_flatMap _)
  · exact absurd hx (appDbGroup_not_mem_flatMap _)
  · exact mem_of_appDbGroups (h.subset (List.mem_cons_of_mem _ (List.mem_singleton_self _)))

end

/-! ## The contract -/

/-- **The output depends only on the two last-write-wins maps.** Inputs with the same replica
maps give the same list, element for element; so do a permutation of a side whose group ids
are distinct, and entities whose replicas are reordered or duplicated. The group-level messages
of each kind are in ascending group-id order, and every message after an
`APP DB is missing multicast group ID` message is one too. -/
theorem comparePacketReplicationTableEntries_maps_order
    (entriesAppDb entriesCache : List IrEntity) :
    (∀ entriesAppDb' entriesCache', replicaMap entriesAppDb' = replicaMap entriesAppDb →
      replicaMap entriesCache' = replicaMap entriesCache →
      comparePacketReplicationTableEntries entriesAppDb' entriesCache' =
        comparePacketReplicationTableEntries entriesAppDb entriesCache) ∧
    (∀ entriesAppDb', entriesAppDb'.Perm entriesAppDb →
      (entriesAppDb.map fun e => e.packetReplicationEngineEntry.groupId).Nodup →
      comparePacketReplicationTableEntries entriesAppDb' entriesCache =
        comparePacketReplicationTableEntries entriesAppDb entriesCache) ∧
    (∀ entriesCache', entriesCache'.Perm entriesCache →
      (entriesCache.map fun e => e.packetReplicationEngineEntry.groupId).Nodup →
      comparePacketReplicationTableEntries entriesAppDb entriesCache' =
        comparePacketReplicationTableEntries entriesAppDb entriesCache) ∧
    (∀ entriesAppDb' entriesCache',
      List.Forall₂ SameGroupAndReplicas entriesAppDb' entriesAppDb →
      List.Forall₂ SameGroupAndReplicas entriesCache' entriesCache →
      comparePacketReplicationTableEntries entriesAppDb' entriesCache' =
        comparePacketReplicationTableEntries entriesAppDb entriesCache) ∧
    (∀ side g g', [missingGroupMessage side g, missingGroupMessage side g'] <+
      comparePacketReplicationTableEntries entriesAppDb entriesCache → g < g') ∧
    (∀ g m, [missingGroupMessage .appDb g, m] <+
      comparePacketReplicationTableEntries entriesAppDb entriesCache →
        ∃ g', m = missingGroupMessage .appDb g') := by
  have maps : ∀ entriesAppDb' entriesCache', replicaMap entriesAppDb' = replicaMap entriesAppDb →
      replicaMap entriesCache' = replicaMap entriesCache →
      comparePacketReplicationTableEntries entriesAppDb' entriesCache' =
        comparePacketReplicationTableEntries entriesAppDb entriesCache := fun _ _ hA hC => by
    rw [comparePacketReplicationTableEntries_eq, comparePacketReplicationTableEntries_eq,
      portInstanceMap_eq_of_replicaMap_eq hA, portInstanceMap_eq_of_replicaMap_eq hC]
  refine ⟨maps, fun _ hp hd => maps _ _ (replicaMap_eq_of_perm hp hd) rfl,
    fun _ hp hd => maps _ _ rfl (replicaMap_eq_of_perm hp hd),
    fun _ _ hA hC => maps _ _ (replicaMap_eq_of_forall₂ hA) (replicaMap_eq_of_forall₂ hC),
    fun _ _ _ h => ?_, fun _ _ h => ?_⟩
  · rw [comparePacketReplicationTableEntries_eq] at h
    exact missingGroup_lt_of_pair_sublist (portInstanceMap_sorted _) (portInstanceMap_sorted _) h
  · rw [comparePacketReplicationTableEntries_eq] at h
    exact appDbGroup_of_pair_sublist h

/-- Group-level messages of the two kinds are not in one ascending order: with group 5 only in
the App DB and group 3 only in the cache, the message about group 5 comes first. -/
theorem comparePacketReplicationTableEntries_groupOrder_counterexample :
    ¬∀ (s s' : Side) (g g' : UInt32),
      [missingGroupMessage s g, missingGroupMessage s' g'] <+
          comparePacketReplicationTableEntries [.packetReplicationEngine ⟨⟨5, []⟩⟩]
            [.packetReplicationEngine ⟨⟨3, []⟩⟩] → g ≤ g' := by
  intro h
  have hout : comparePacketReplicationTableEntries [.packetReplicationEngine ⟨⟨5, []⟩⟩]
      [.packetReplicationEngine ⟨⟨3, []⟩⟩] =
        [missingGroupMessage .cache 5, missingGroupMessage .appDb 3] := by decide
  exact absurd (h .cache .appDb 5 3 (hout ▸ List.Sublist.refl _)) (by decide)

end PacketReplication
