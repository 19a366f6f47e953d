import PacketReplication.Translation

/-!
# Reading the App DB back into IR entries

`getAllAppDbPacketReplicationTableEntries` enumerates the App DB keys under `TablePrefix()`,
parses each key's group id and each field name's `<port>:<instance>` (split at the last `:`),
and fails on the first malformed key or field.

* `getAllAppDbPacketReplicationTableEntries_spec`: the reader fails exactly when some prefixed
  key has a bad group id or a bad field name, and otherwise returns one entry per prefixed key
  in enumeration order; other tables never matter, and the `StripTableName` error is
  unreachable from this caller.
* `createPacketReplicationTableUpdateForAppDb_roundTrip`: a tuple written for `INSERT` or
  `MODIFY` reads back as the entry it was written from, for every group id, instance and port,
  ports holding `:` included.
-/

namespace PacketReplication

open Absl

/-! ## `Except` traversals -/

section
variable {ε α β : Type}

@[simp] theorem ok_bind (a : α) (f : α → Except ε β) : (Except.ok a >>= f) = f a := rfl

@[simp] theorem error_bind (s : ε) (f : α → Except ε β) : (Except.error s >>= f) = .error s := rfl

@[simp] theorem pure_eq_ok (a : α) : (pure a : Except ε α) = .ok a := rfl

theorem mapM_ok_iff (f : α → Except ε β) :
    ∀ (xs : List α) (ys : List β), xs.mapM f = .ok ys ↔ List.Forall₂ (fun x y => f x = .ok y) xs ys
  | [], ys => by
    rw [List.mapM_nil]
    cases ys <;> simp
  | x :: xs, ys => by
    have ih := mapM_ok_iff f xs
    rw [List.mapM_cons]
    cases ys with
    | nil => cases f x <;> cases xs.mapM f <;> simp
    | cons z zs =>
      rw [List.forall₂_cons, ← ih]
      cases f x <;> cases xs.mapM f <;> simp

theorem mapM_error_iff (f : α → Except ε β) :
    ∀ xs : List α, (∃ s, xs.mapM f = .error s) ↔ ∃ x ∈ xs, ∃ s, f x = .error s
  | [] => by
    rw [List.mapM_nil]
    simp
  | x :: xs => by
    have ih := mapM_error_iff f xs
    rw [List.mapM_cons]
    cases hx : f x with
    | error s =>
      simp only [error_bind]
      exact ⟨fun _ => ⟨x, List.mem_cons_self _ _, s, hx⟩, fun _ => ⟨s, rfl⟩⟩
    | ok y =>
      cases hxs : xs.mapM f with
      | error s =>
        simp only [ok_bind, error_bind]
        obtain ⟨z, hz, t, ht⟩ := ih.mp ⟨s, hxs⟩
        exact ⟨fun _ => ⟨z, List.mem_cons_of_mem _ hz, t, ht⟩, fun _ => ⟨s, rfl⟩⟩
      | ok ys =>
        simp only [ok_bind, pure_eq_ok]
        constructor
        · rintro ⟨_, ⟨⟩⟩
        · rintro ⟨z, hz, t, ht⟩
          rcases List.mem_cons.mp hz with rfl | hz
          · rw [hx] at ht; cases ht
          · obtain ⟨u, hu⟩ := ih.mpr ⟨z, hz, t, ht⟩
            rw [hxs] at hu; cases hu

theorem mapM_congr {f g : α → Except ε β} :
    ∀ {xs : List α}, (∀ x ∈ xs, f x = g x) → xs.mapM f = xs.mapM g
  | [], _ => rfl
  | x :: xs, h => by
    rw [List.mapM_cons, List.mapM_cons, h x (List.mem_cons_self _ _),
      mapM_congr fun y hy => h y (List.mem_cons_of_mem _ hy)]

end

/-! ## The reader -/

section
variable (tableName : String)

/-- `GetAllPacketReplicationTableEntryKeys`: the App DB keys under `TablePrefix()`, in
enumeration order. -/
def getAllPacketReplicationTableEntryKeys (appDb : AppDb) : List String :=
  appDb.keys.filter fun key => startsWith key (tablePrefix tableName)

/-- `field.rfind(":")` and the two `substr` around it: the text before the last `c` and the text
after it, if `c` occurs. -/
def splitAtLast (c : Char) : List Char → Option (List Char × List Char)
  | [] => none
  | x :: xs =>
    match splitAtLast c xs with
    | some (before, after) => some (x :: before, after)
    | none => if x = c then some ([], xs) else none

/-- The body of the replica loop: one field name read back as a replica. -/
def replicaOfField (field : String) : Except Status IrReplica :=
  match splitAtLast ':' field.data with
  | none => .error (invalidArgumentError
      ("Unexpected multicast port/instance format '" ++ field ++ "' for APP DB packet replication"))
  | some (port, instanceStr) =>
    match simpleHexAtoi ⟨instanceStr⟩ with
    | none => .error (invalidArgumentError ("Unexpected replica instance value '" ++
        String.mk instanceStr ++ "' for APP DB packet replication"))
    | some inst => .ok ⟨⟨port⟩, inst⟩

/-- The body of the key loop: one App DB key and its field/value pairs read back as an entry. -/
def entryOfKey (key : String) (fieldsValues : List (String × String)) :
    Except Status IrPacketReplicationEngineEntry := do
  let multicastGroupId ← stripTableName tableName key
  match simpleHexAtoi multicastGroupId with
  | none => .error (invalidArgumentError
      ("Failed to parse multicast_group_id from App DB packet replication entry key '" ++ key))
  | some groupId =>
    let replicas ← fieldsValues.mapM fun kfv => replicaOfField kfv.1
    pure ⟨⟨groupId, replicas⟩⟩

/-- `GetAllAppDbPacketReplicationTableEntries`. -/
def getAllAppDbPacketReplicationTableEntries (appDb : AppDb) :
    Except Status (List IrPacketReplicationEngineEntry) :=
  (getAllPacketReplicationTableEntryKeys tableName appDb).mapM fun key =>
    entryOfKey tableName key (appDb.get key)

end

/-! ## Splitting at the last `:` -/

section
variable {c : Char}

@[simp] theorem splitAtLast_nil : splitAtLast c [] = none := rfl

theorem splitAtLast_eq_none : ∀ {l : List Char}, splitAtLast c l = none ↔ c ∉ l
  | [] => by simp
  | x :: xs => by
    have ih := @splitAtLast_eq_none xs
    simp only [splitAtLast]
    cases h : splitAtLast c xs with
    | some p =>
      have hc : c ∈ xs := by
        by_contra hc
        exact absurd (ih.mpr hc) (by simp [h])
      simp [hc]
    | none =>
      have hc : c ∉ xs := ih.mp h
      by_cases hx : x = c
      · simp [hx]
      · simp [hx, hc, Ne.symm hx]

theorem splitAtLast_append {after : List Char} (ha : c ∉ after) :
    ∀ before, splitAtLast c (before ++ c :: after) = some (before, after)
  | [] => by simp [splitAtLast, splitAtLast_eq_none.mpr ha]
  | x :: before => by simp [splitAtLast, splitAtLast_append ha before]

theorem eq_of_splitAtLast_eq_some :
    ∀ {l before after : List Char}, splitAtLast c l = some (before, after) →
      l = before ++ c :: after ∧ c ∉ after
  | [], _, _, h => by simp at h
  | x :: xs, before, after, h => by
    simp only [splitAtLast] at h
    cases hxs : splitAtLast c xs with
    | some p =>
      obtain ⟨b, a⟩ := p
      rw [hxs] at h
      obtain ⟨rfl, rfl⟩ := Prod.mk.inj (Option.some.inj h)
      obtain ⟨rfl, ha⟩ := eq_of_splitAtLast_eq_some hxs
      exact ⟨rfl, ha⟩
    | none =>
      rw [hxs] at h
      split_ifs at h with hx
      obtain ⟨rfl, rfl⟩ := Prod.mk.inj (Option.some.inj h)
      exact ⟨by simp [hx], splitAtLast_eq_none.mp hxs⟩

theorem splitAtLast_eq_some {l before after : List Char} :
    splitAtLast c l = some (before, after) ↔ l = before ++ c :: after ∧ c ∉ after :=
  ⟨eq_of_splitAtLast_eq_some, fun ⟨hl, ha⟩ => hl ▸ splitAtLast_append ha before⟩

theorem append_cons_inj {b₁ b₂ a₁ a₂ : List Char} (h : b₁ ++ c :: a₁ = b₂ ++ c :: a₂)
    (h₁ : c ∉ a₁) (h₂ : c ∉ a₂) : b₁ = b₂ ∧ a₁ = a₂ := by
  have := (splitAtLast_append h₁ b₁).symm.trans (h ▸ splitAtLast_append h₂ b₂)
  simpa using this

end

/-! ## One field, one key -/

section
variable {tableName : String}

theorem replicaOfField_of_split {field : String} {port after : List Char}
    (hfield : field.data = port ++ ':' :: after) (ha : ':' ∉ after) :
    replicaOfField field = match simpleHexAtoi ⟨after⟩ with
      | none => .error (invalidArgumentError ("Unexpected replica instance value '" ++
          String.mk after ++ "' for APP DB packet replication"))
      | some inst => .ok ⟨⟨port⟩, inst⟩ := by
  rw [replicaOfField, hfield, splitAtLast_append ha]

theorem replicaOfField_eq_ok {field : String} {r : IrReplica} :
    replicaOfField field = .ok r ↔ ∃ after, field.data = r.port.data ++ ':' :: after ∧
      ':' ∉ after ∧ simpleHexAtoi ⟨after⟩ = some r.instance_ := by
  cases h : splitAtLast ':' field.data with
  | none =>
    have hc := splitAtLast_eq_none.mp h
    simp only [replicaOfField, h, reduceCtorEq, false_iff, not_exists, not_and]
    intro after hfield
    exact absurd (hfield ▸ List.mem_append_right _ (List.mem_cons_self _ _)) hc
  | some p =>
    obtain ⟨port, after⟩ := p
    obtain ⟨hfield, ha⟩ := splitAtLast_eq_some.mp h
    rw [replicaOfField_of_split hfield ha]
    constructor
    · intro hok
      cases hi : simpleHexAtoi ⟨after⟩ with
      | none => rw [hi] at hok; cases hok
      | some inst =>
        rw [hi] at hok; cases hok
        exact ⟨after, hfield, ha, hi⟩
    · rintro ⟨after', hfield', ha', hi⟩
      obtain ⟨hport, rfl⟩ := append_cons_inj (hfield.symm.trans hfield') ha ha'
      rw [hi, hport]

theorem replicaOfField_error_iff {field : String} :
    (∃ s, replicaOfField field = .error s) ↔ ':' ∉ field.data ∨
      ∃ before after, field.data = before ++ ':' :: after ∧ ':' ∉ after ∧
        simpleHexAtoi ⟨after⟩ = none := by
  cases h : splitAtLast ':' field.data with
  | none =>
    simp [replicaOfField, h, splitAtLast_eq_none.mp h]
  | some p =>
    obtain ⟨port, after⟩ := p
    obtain ⟨hfield, ha⟩ := splitAtLast_eq_some.mp h
    have hc : ':' ∈ field.data := hfield ▸ List.mem_append_right _ (List.mem_cons_self _ _)
    rw [replicaOfField_of_split hfield ha]
    constructor
    · rintro ⟨s, hs⟩
      cases hi : simpleHexAtoi ⟨after⟩ with
      | none => exact .inr ⟨port, after, hfield, ha, hi⟩
      | some inst => rw [hi] at hs; cases hs
    · rintro (hn | ⟨before', after', hfield', ha', hi⟩)
      · exact absurd hc hn
      · obtain ⟨-, rfl⟩ := append_cons_inj (hfield.symm.trans hfield') ha ha'
        rw [hi]; exact ⟨_, rfl⟩

theorem stripTableName_append (rest : String) :
    stripTableName tableName (tablePrefix tableName ++ rest) = .ok rest := by
  have h : startsWith (tablePrefix tableName ++ rest) (tablePrefix tableName) = true :=
    startsWith_iff.mpr ⟨rest, rfl⟩
  rw [stripTableName, if_pos h, String.data_append]
  exact congrArg Except.ok (String.ext (List.drop_left _ _))

theorem entryOfKey_append (rest : String) (fieldsValues : List (String × String)) :
    entryOfKey tableName (tablePrefix tableName ++ rest) fieldsValues =
      match simpleHexAtoi rest with
      | none => .error (invalidArgumentError
          ("Failed to parse multicast_group_id from App DB packet replication entry key '" ++
            (tablePrefix tableName ++ rest)))
      | some groupId => (fieldsValues.mapM fun kfv => replicaOfField kfv.1) >>= fun replicas =>
          pure ⟨⟨groupId, replicas⟩⟩ := by
  simp only [entryOfKey, stripTableName_append, ok_bind]

theorem entryOfKey_error_iff (rest : String) (fieldsValues : List (String × String)) :
    (∃ s, entryOfKey tableName (tablePrefix tableName ++ rest) fieldsValues = .error s) ↔
      simpleHexAtoi rest = none ∨ ∃ fv ∈ fieldsValues, ∃ s, replicaOfField fv.1 = .error s := by
  rw [entryOfKey_append, ← mapM_error_iff]
  cases simpleHexAtoi rest with
  | none => simp
  | some groupId =>
    cases fieldsValues.mapM fun kfv => replicaOfField kfv.1 <;> simp

theorem entryOfKey_eq_ok (rest : String) (fieldsValues : List (String × String))
    (entry : IrPacketReplicationEngineEntry) :
    entryOfKey tableName (tablePrefix tableName ++ rest) fieldsValues = .ok entry ↔
      simpleHexAtoi rest = some entry.multicastGroupEntry.multicastGroupId ∧
        List.Forall₂ (fun fv r => replicaOfField fv.1 = .ok r) fieldsValues
          entry.multicastGroupEntry.replicas := by
  rw [entryOfKey_append, ← mapM_ok_iff]
  obtain ⟨⟨groupId, replicas⟩⟩ := entry
  cases simpleHexAtoi rest with
  | none => simp
  | some g =>
    cases fieldsValues.mapM fun kfv => replicaOfField kfv.1 <;> simp [eq_comm]

theorem mem_getAllPacketReplicationTableEntryKeys {appDb : AppDb} {key : String} :
    key ∈ getAllPacketReplicationTableEntryKeys tableName appDb ↔
      key ∈ appDb.keys ∧ ∃ rest, key = tablePrefix tableName ++ rest := by
  simp [getAllPacketReplicationTableEntryKeys, startsWith_iff]

end

/-! ## The whole reader -/

/-- **The reader fails exactly on malformed prefixed content and ignores other tables.** It
fails iff some key under `TablePrefix()` has a group id `SimpleHexAtoi` rejects, a field name
with no `:`, or a field name whose text after the last `:` `SimpleHexAtoi` rejects. Otherwise it
returns one entry per prefixed key, in enumeration order, with the key's group id and one replica
per field, in field order. So only the prefixed keys and their fields decide the result, and
`StripTableName` never fails on a key this caller passes it. -/
theorem getAllAppDbPacketReplicationTableEntries_spec (tableName : String) (appDb : AppDb) :
    ((∃ s, getAllAppDbPacketReplicationTableEntries tableName appDb = .error s) ↔
      ∃ key ∈ appDb.keys, ∃ rest, key = tablePrefix tableName ++ rest ∧
        (simpleHexAtoi rest = none ∨ (∃ fv ∈ appDb.get key, ':' ∉ fv.1.data) ∨
          ∃ fv ∈ appDb.get key, ∃ before after, fv.1.data = before ++ ':' :: after ∧
            ':' ∉ after ∧ simpleHexAtoi ⟨after⟩ = none)) ∧
    (∀ entries, getAllAppDbPacketReplicationTableEntries tableName appDb = .ok entries →
      List.Forall₂ (fun key entry => ∃ rest, key = tablePrefix tableName ++ rest ∧
          simpleHexAtoi rest = some entry.multicastGroupEntry.multicastGroupId ∧
          List.Forall₂ (fun fv r => ∃ after, fv.1.data = r.port.data ++ ':' :: after ∧
              ':' ∉ after ∧ simpleHexAtoi ⟨after⟩ = some r.instance_)
            (appDb.get key) entry.multicastGroupEntry.replicas)
        (getAllPacketReplicationTableEntryKeys tableName appDb) entries) ∧
    (∀ appDb' : AppDb, getAllPacketReplicationTableEntryKeys tableName appDb' =
        getAllPacketReplicationTableEntryKeys tableName appDb →
      (∀ key ∈ getAllPacketReplicationTableEntryKeys tableName appDb,
        appDb'.get key = appDb.get key) →
      getAllAppDbPacketReplicationTableEntries tableName appDb' =
        getAllAppDbPacketReplicationTableEntries tableName appDb) ∧
    ∀ key ∈ getAllPacketReplicationTableEntryKeys tableName appDb,
      ∃ rest, stripTableName tableName key = .ok rest := by
  refine ⟨?_, ?_, ?_, ?_⟩
  · rw [getAllAppDbPacketReplicationTableEntries, mapM_error_iff]
    constructor
    · rintro ⟨key, hkey, s, hs⟩
      obtain ⟨hk, rest, rfl⟩ := mem_getAllPacketReplicationTableEntryKeys.mp hkey
      refine ⟨_, hk, rest, rfl, ?_⟩
      rcases (entryOfKey_error_iff rest _).mp ⟨s, hs⟩ with h | ⟨fv, hfv, t, ht⟩
      · exact .inl h
      · exact .inr ((replicaOfField_error_iff.mp ⟨t, ht⟩).imp (⟨fv, hfv, ·⟩) (⟨fv, hfv, ·⟩))
    · rintro ⟨key, hk, rest, rfl, h⟩
      refine ⟨_, mem_getAllPacketReplicationTableEntryKeys.mpr ⟨hk, rest, rfl⟩,
        (entryOfKey_error_iff rest _).mpr ?_⟩
      rcases h with h | ⟨fv, hfv, h⟩ | ⟨fv, hfv, h⟩
      · exact .inl h
      · exact .inr ⟨fv, hfv, replicaOfField_error_iff.mpr (.inl h)⟩
      · exact .inr ⟨fv, hfv, replicaOfField_error_iff.mpr (.inr h)⟩
  · intro entries h
    rw [getAllAppDbPacketReplicationTableEntries, mapM_ok_iff] at h
    have hkeys : ∀ key ∈ getAllPacketReplicationTableEntryKeys tableName appDb,
        ∃ rest, key = tablePrefix tableName ++ rest :=
      fun key hkey => (mem_getAllPacketReplicationTableEntryKeys.mp hkey).2
    refine ((List.forall₂_and_left _ _).mpr ⟨hkeys, h⟩).imp ?_
    rintro key entry ⟨⟨rest, rfl⟩, hok⟩
    obtain ⟨hid, hfields⟩ := (entryOfKey_eq_ok rest _ _).mp hok
    exact ⟨rest, rfl, hid, hfields.imp fun _ _ => replicaOfField_eq_ok.mp⟩
  · intro appDb' hkeys hget
    rw [getAllAppDbPacketReplicationTableEntries, getAllAppDbPacketReplicationTableEntries, hkeys]
    exact mapM_congr fun key hkey => by rw [hget key hkey]
  · intro key hkey
    obtain ⟨-, rest, rfl⟩ := mem_getAllPacketReplicationTableEntryKeys.mp hkey
    exact ⟨rest, stripTableName_append rest⟩

/-! ## Reading back what `INSERT` and `MODIFY` write -/

theorem replicaOfField_replicaFieldName (r : IrReplica) :
    replicaOfField (replicaFieldName r) = .ok r := by
  rw [replicaOfField_eq_ok]
  refine ⟨'0' :: 'x' :: (hex r.instance_).data, ?_, ?_, ?_⟩
  · simp [replicaFieldName, String.data_append]
  · simpa using colon_not_mem_hex r.instance_
  · rw [← simpleHexAtoi_zeroX_hex r.instance_]
    rfl

theorem entryOfKey_insertFieldsValues (tableName : String)
    (entry : IrPacketReplicationEngineEntry) :
    entryOfKey tableName (getRedisPacketReplicationTableKey tableName entry)
      (insertFieldsValues entry) = .ok entry := by
  rw [getRedisPacketReplicationTableKey, entryOfKey_eq_ok]
  refine ⟨simpleHexAtoi_hex _, ?_⟩
  simp only [insertFieldsValues, List.forall₂_map_left_iff, replicaOfField_replicaFieldName,
    Except.ok.injEq, List.forall₂_eq_eq_eq]

/-- **Codec round trip.** The tuple an `INSERT` or `MODIFY` appends has key
`TablePrefix() ++ IrMulticastGroupEntryToAppDbKey` and one `<port>:0x<hex instance>` field per
replica; decoding it as the reader does gives back the entry: same group id, same replicas in
the same order, for every group id, instance and port, ports holding `:` included. -/
theorem createPacketReplicationTableUpdateForAppDb_roundTrip (tableName : String)
    (updateType : UpdateType) (hType : updateType = .INSERT ∨ updateType = .MODIFY)
    (entry : IrPacketReplicationEngineEntry) (kfvUpdates : List KeyOpFieldsValuesTuple) :
    ∃ kfv, (createPacketReplicationTableUpdateForAppDb tableName updateType entry kfvUpdates).2 =
        kfvUpdates ++ [kfv] ∧
      kfv.key = tablePrefix tableName ++ irMulticastGroupEntryToAppDbKey entry.multicastGroupEntry ∧
      kfv.fieldsValues.map Prod.fst =
        entry.multicastGroupEntry.replicas.map (fun r => r.port ++ ":0x" ++ hex r.instance_) ∧
      entryOfKey tableName kfv.key kfv.fieldsValues = .ok entry := by
  refine ⟨⟨getRedisPacketReplicationTableKey tableName entry, "SET", insertFieldsValues entry⟩,
    ?_, rfl, ?_, entryOfKey_insertFieldsValues tableName entry⟩
  · rw [createPacketReplicationTableUpdateForAppDb_eq, if_pos hType]
  · simp [insertFieldsValues, replicaFieldName]

theorem createPacketReplicationTableUpdateForAppDb_roundTrip_colonPort :
    (UpdateType.INSERT = .INSERT ∨ UpdateType.INSERT = .MODIFY) ∧
    ∃ kfv, (createPacketReplicationTableUpdateForAppDb "REPLICATION_IP_MULTICAST_TABLE" .INSERT
          ⟨⟨10, [⟨"Ethernet0", 0⟩, ⟨"Ethernet4:1", 1⟩]⟩⟩ []).2 = [] ++ [kfv] ∧
      kfv.key = tablePrefix "REPLICATION_IP_MULTICAST_TABLE" ++
        irMulticastGroupEntryToAppDbKey ⟨10, [⟨"Ethernet0", 0⟩, ⟨"Ethernet4:1", 1⟩]⟩ ∧
      kfv.fieldsValues.map Prod.fst = [⟨"Ethernet0", 0⟩, ⟨"Ethernet4:1", 1⟩].map
        (fun r : IrReplica => r.port ++ ":0x" ++ hex r.instance_) ∧
      entryOfKey "REPLICATION_IP_MULTICAST_TABLE" kfv.key kfv.fieldsValues =
        .ok ⟨⟨10, [⟨"Ethernet0", 0⟩, ⟨"Ethernet4:1", 1⟩]⟩⟩ :=
  ⟨.inl rfl, createPacketReplicationTableUpdateForAppDb_roundTrip _ _ (.inl rfl) _ _⟩

/-! ## Stored numbers are read exactly or rejected -/

section
variable {marker digits : List Char}

theorem colon_not_mem_hexDigits
    (hmarker : marker = [] ∨ marker = ['0', 'x'] ∨ marker = ['0', 'X'])
    (hd : ∀ c ∈ digits, kAsciiToInt c < 16) : ':' ∉ marker ++ digits := by
  rw [List.mem_append, not_or]
  refine ⟨?_, fun h => absurd (hd ':' h) (by decide)⟩
  rcases hmarker with rfl | rfl | rfl <;> decide

theorem replicaOfField_hexDigits (port : String)
    (hmarker : marker = [] ∨ marker = ['0', 'x'] ∨ marker = ['0', 'X']) (hne : digits ≠ [])
    (hd : ∀ c ∈ digits, kAsciiToInt c < 16) :
    replicaOfField ⟨port.data ++ ':' :: (marker ++ digits)⟩ =
      if digitsValue 16 0 digits < 2 ^ 32 then .ok ⟨port, UInt32.ofNat (digitsValue 16 0 digits)⟩
      else .error (invalidArgumentError ("Unexpected replica instance value '" ++
        String.mk (marker ++ digits) ++ "' for APP DB packet replication")) := by
  rw [replicaOfField_of_split rfl (colon_not_mem_hexDigits hmarker hd),
    simpleHexAtoi_hexDigits hmarker hne hd]
  split_ifs <;> rfl

theorem entryOfKey_hexDigits (tableName : String) (fieldsValues : List (String × String))
    (hmarker : marker = [] ∨ marker = ['0', 'x'] ∨ marker = ['0', 'X']) (hne : digits ≠ [])
    (hd : ∀ c ∈ digits, kAsciiToInt c < 16) :
    entryOfKey tableName (tablePrefix tableName ++ ⟨marker ++ digits⟩) fieldsValues =
      if digitsValue 16 0 digits < 2 ^ 32 then
        (fieldsValues.mapM fun kfv => replicaOfField kfv.1) >>= fun replicas =>
          pure ⟨⟨UInt32.ofNat (digitsValue 16 0 digits), replicas⟩⟩
      else .error (invalidArgumentError
        ("Failed to parse multicast_group_id from App DB packet replication entry key '" ++
          (tablePrefix tableName ++ ⟨marker ++ digits⟩))) := by
  rw [entryOfKey_append, simpleHexAtoi_hexDigits hmarker hne hd]
  split_ifs <;> rfl

end

/-- **Stored group ids and instances are read exactly or rejected, never wrapped.** Take a key
`TablePrefix() ++ <text>` and a field `<port>:<text>` (any port), where the text is a nonempty
run of hex digits of either case, after an optional `0x` or `0X`. When the run's value is below
`2 ^ 32`, the key loop reads it as the group id and the replica loop as the instance, exactly;
otherwise each fails with its own message, naming the key or the instance text. No value is
truncated to 32 bits. -/
theorem entryOfKey_replicaOfField_hexDigits (tableName port : String)
    (fieldsValues : List (String × String)) {marker digits : List Char}
    (hmarker : marker = [] ∨ marker = ['0', 'x'] ∨ marker = ['0', 'X']) (hne : digits ≠ [])
    (hd : ∀ c ∈ digits, kAsciiToInt c < 16) :
    entryOfKey tableName (tablePrefix tableName ++ ⟨marker ++ digits⟩) fieldsValues =
      (if digitsValue 16 0 digits < 2 ^ 32 then
        (fieldsValues.mapM fun kfv => replicaOfField kfv.1) >>= fun replicas =>
          pure ⟨⟨UInt32.ofNat (digitsValue 16 0 digits), replicas⟩⟩
      else .error (invalidArgumentError
        ("Failed to parse multicast_group_id from App DB packet replication entry key '" ++
          (tablePrefix tableName ++ ⟨marker ++ digits⟩)))) ∧
    replicaOfField ⟨port.data ++ ':' :: (marker ++ digits)⟩ =
      if digitsValue 16 0 digits < 2 ^ 32 then .ok ⟨port, UInt32.ofNat (digitsValue 16 0 digits)⟩
      else .error (invalidArgumentError ("Unexpected replica instance value '" ++
        String.mk (marker ++ digits) ++ "' for APP DB packet replication")) :=
  ⟨entryOfKey_hexDigits tableName fieldsValues hmarker hne hd,
    replicaOfField_hexDigits port hmarker hne hd⟩

theorem entryOfKey_replicaOfField_hexDigits_overflow :
    let marker := ['0', 'X']
    let digits := ['1', '0', '0', '0', '0', '0', '0', '0', '0']
    (marker = [] ∨ marker = ['0', 'x'] ∨ marker = ['0', 'X']) ∧ digits ≠ [] ∧
    (∀ c ∈ digits, kAsciiToInt c < 16) ∧
    entryOfKey "REPLICATION_IP_MULTICAST_TABLE"
        (tablePrefix "REPLICATION_IP_MULTICAST_TABLE" ++ ⟨marker ++ digits⟩) [] =
      (if digitsValue 16 0 digits < 2 ^ 32 then
        ([].mapM fun kfv : String × String => replicaOfField kfv.1) >>= fun replicas =>
          pure ⟨⟨UInt32.ofNat (digitsValue 16 0 digits), replicas⟩⟩
      else .error (invalidArgumentError
        ("Failed to parse multicast_group_id from App DB packet replication entry key '" ++
          (tablePrefix "REPLICATION_IP_MULTICAST_TABLE" ++ ⟨marker ++ digits⟩)))) ∧
    replicaOfField ⟨"Ethernet4".data ++ ':' :: (marker ++ digits)⟩ =
      if digitsValue 16 0 digits < 2 ^ 32 then
        .ok ⟨"Ethernet4", UInt32.ofNat (digitsValue 16 0 digits)⟩
      else .error (invalidArgumentError ("Unexpected replica instance value '" ++
        String.mk (marker ++ digits) ++ "' for APP DB packet replication")) :=
  have hmarker : ['0', 'X'] = [] ∨ ['0', 'X'] = ['0', 'x'] ∨ ['0', 'X'] = ['0', 'X'] := by
    decide
  have hne : ['1', '0', '0', '0', '0', '0', '0', '0', '0'] ≠ [] := by decide
  have hd : ∀ c ∈ ['1', '0', '0', '0', '0', '0', '0', '0', '0'], kAsciiToInt c < 16 := by
    decide
  ⟨hmarker, hne, hd,
    entryOfKey_replicaOfField_hexDigits _ "Ethernet4" [] hmarker hne hd⟩

/-! ## What the reader accepts -/

theorem replicaOfField_eq_ok_iff_hexText {field : String} {r : IrReplica} :
    replicaOfField field = .ok r ↔ ∃ after, field.data = r.port.data ++ ':' :: after ∧
      ':' ∉ after ∧ HexText after r.instance_.toNat := by
  rw [replicaOfField_eq_ok]
  simp only [simpleHexAtoi_eq_some_iff]

/-- **The reader accepts exactly the well-formed tables.** Reading succeeds with `entries`
exactly when, key by key in enumeration order, each prefixed key is `TablePrefix()` followed by
a hex text (`HexText`: whitespace, an optional `+`, an optional `0x` or `0X`, hex digits of
either case, whitespace) whose value is the entry's group id, and field by field each field
name is the replica's port, a `:`, and a hex text with no `:` whose value is the replica's
instance. So the reader accepts more spellings than the writer produces (` a`, `+a`, `0xa`,
`A` and `0a` all read as group 10), and no value of 2^32 or more. -/
theorem getAllAppDbPacketReplicationTableEntries_eq_ok_iff (tableName : String) (appDb : AppDb)
    (entries : List IrPacketReplicationEngineEntry) :
    getAllAppDbPacketReplicationTableEntries tableName appDb = .ok entries ↔
      List.Forall₂ (fun key entry => ∃ rest, key = tablePrefix tableName ++ rest ∧
          HexText rest.data entry.multicastGroupEntry.multicastGroupId.toNat ∧
          List.Forall₂ (fun fv r => ∃ after, fv.1.data = r.port.data ++ ':' :: after ∧
              ':' ∉ after ∧ HexText after r.instance_.toNat)
            (appDb.get key) entry.multicastGroupEntry.replicas)
        (getAllPacketReplicationTableEntryKeys tableName appDb) entries := by
  have hentry : ∀ rest entry, entryOfKey tableName (tablePrefix tableName ++ rest)
      (appDb.get (tablePrefix tableName ++ rest)) = .ok entry ↔
        HexText rest.data entry.multicastGroupEntry.multicastGroupId.toNat ∧
        List.Forall₂ (fun fv r => ∃ after, fv.1.data = r.port.data ++ ':' :: after ∧
            ':' ∉ after ∧ HexText after r.instance_.toNat)
          (appDb.get (tablePrefix tableName ++ rest)) entry.multicastGroupEntry.replicas :=
    fun rest entry => by
      rw [entryOfKey_eq_ok, simpleHexAtoi_eq_some_iff]
      simp only [replicaOfField_eq_ok_iff_hexText]
  rw [getAllAppDbPacketReplicationTableEntries, mapM_ok_iff]
  constructor
  · intro h
    have hkeys : ∀ key ∈ getAllPacketReplicationTableEntryKeys tableName appDb,
        ∃ rest, key = tablePrefix tableName ++ rest :=
      fun key hkey => (mem_getAllPacketReplicationTableEntryKeys.1 hkey).2
    refine ((List.forall₂_and_left _ _).2 ⟨hkeys, h⟩).imp ?_
    rintro key entry ⟨⟨rest, rfl⟩, hok⟩
    exact ⟨rest, rfl, (hentry rest entry).1 hok⟩
  · refine fun h => h.imp ?_
    rintro key entry ⟨rest, rfl, hrest⟩
    exact (hentry rest entry).2 hrest

end PacketReplication
