import Mathlib

/-!
# Ordered containers: `absl::btree_set`, `absl::btree_map` and `std::set_difference`

`ComparePacketReplicationEntities` keeps each side's replicas in an
`absl::btree_set<std::string>` and lists the differences of the two sets with
`std::set_difference`; `ComparePacketReplicationTableEntries` keeps each side's entities in an
`absl::btree_map<uint32_t, IrEntity>`. A btree is modelled by its in-order contents, a list
strictly sorted by the container's order, and both kinds of insert by `btreeUpsert`.

What the comparison uses: a btree built by inserts stays strictly sorted
(`btreeUpsert_sorted`), a map answers each lookup with the last value written to the key
(`lookup_foldl_btreeUpsert`), two strictly sorted lists with the same members are equal
(`eq_of_sorted_of_mem_iff`), and on sorted ranges `setDifference` is a filter
(`setDifference_eq_filter`).
-/

namespace PacketReplication

/-! ## The two orders -/

/-- `std::string`'s `operator<`: lexicographic, a proper prefix first. The strings are UTF-8,
whose byte order is the order of the code points, so characters compare by `Char.toNat`. -/
def lexLess : List Char → List Char → Bool
  | _, [] => false
  | [], _ :: _ => true
  | a :: as, b :: bs => a.toNat < b.toNat || (a = b && lexLess as bs)

/-- `std::less<std::string>`, the order of an `absl::btree_set<std::string>`. -/
def StringLt (a b : String) : Prop := lexLess a.data b.data = true

instance decidableStringLt : DecidableRel StringLt := fun a b =>
  inferInstanceAs (Decidable (lexLess a.data b.data = true))

theorem lexLess_irrefl : ∀ l : List Char, lexLess l l = false
  | [] => rfl
  | a :: l => by simp [lexLess, lexLess_irrefl l]

theorem lexLess_trans : ∀ {a b c : List Char}, lexLess a b → lexLess b c → lexLess a c
  | _, [], _, hab, _ => by simp [lexLess] at hab
  | _, _ :: _, [], _, hbc => by simp [lexLess] at hbc
  | [], _ :: _, _ :: _, _, _ => rfl
  | x :: as, y :: bs, z :: cs, hab, hbc => by
    simp only [lexLess, Bool.or_eq_true, decide_eq_true_eq, Bool.and_eq_true] at hab hbc ⊢
    rcases hab with h | ⟨rfl, h⟩ <;> rcases hbc with h' | ⟨rfl, h'⟩
    · exact .inl (h.trans h')
    · exact .inl h
    · exact .inl h'
    · exact .inr ⟨rfl, lexLess_trans h h'⟩

theorem lexLess_total : ∀ {a b : List Char}, a ≠ b → lexLess a b ∨ lexLess b a
  | [], [], h => absurd rfl h
  | [], _ :: _, _ => .inl rfl
  | _ :: _, [], _ => .inr rfl
  | x :: as, y :: bs, h => by
    simp only [lexLess, Bool.or_eq_true, decide_eq_true_eq, Bool.and_eq_true]
    rcases Nat.lt_trichotomy x.toNat y.toNat with hxy | hxy | hxy
    · exact .inl (.inl hxy)
    · obtain rfl : x = y := Char.ext (UInt32.toNat.inj hxy)
      exact (lexLess_total fun e => h (congrArg (x :: ·) e)).imp (.inr ⟨rfl, ·⟩) (.inr ⟨rfl, ·⟩)
    · exact .inr (.inl hxy)

instance isStrictTotalOrder_stringLt : IsStrictTotalOrder String StringLt where
  irrefl a := by simp [StringLt, lexLess_irrefl]
  trans _ _ _ := lexLess_trans
  trichotomous a b := by
    by_cases h : a = b
    · exact .inr (.inl h)
    · exact (lexLess_total (mt String.ext h)).elim .inl (.inr ∘ .inr)

/-- `uint32_t`'s `<`, the order of an `absl::btree_map<uint32_t, _>`. -/
instance isStrictTotalOrder_uint32Lt : IsStrictTotalOrder UInt32 (· < ·) where
  irrefl := UInt32.lt_irrefl
  trans _ _ _ := UInt32.lt_trans
  trichotomous a b := by
    rcases Nat.lt_trichotomy a.toNat b.toNat with h | h | h
    · exact .inl h
    · exact .inr (.inl (UInt32.toNat.inj h))
    · exact .inr (.inr h)

/-- `uint32_t`'s `<=`, by which a finite set of group ids is listed in ascending order. -/
instance isTotal_uint32Le : IsTotal UInt32 (· ≤ ·) := ⟨fun a b => Nat.le_total a.toNat b.toNat⟩

instance isTrans_uint32Le : IsTrans UInt32 (· ≤ ·) := ⟨fun _ _ _ => Nat.le_trans⟩

instance isAntisymm_uint32Le : IsAntisymm UInt32 (· ≤ ·) :=
  ⟨fun _ _ h h' => UInt32.toNat.inj (Nat.le_antisymm h h')⟩

theorem lexLess_iff_lex : ∀ {a b : List Char}, lexLess a b = true ↔ List.Lex (· < ·) a b
  | _, [] => by simp [lexLess, List.Lex.not_nil_right]
  | [], _ :: _ => ⟨fun _ => .nil, fun _ => rfl⟩
  | x :: as, y :: bs => by
    simp only [lexLess, Bool.or_eq_true, decide_eq_true_eq, Bool.and_eq_true, lexLess_iff_lex]
    constructor
    · rintro (h | ⟨rfl, h⟩)
      · exact .rel h
      · exact .cons h
    · intro h
      cases h with
      | cons h => exact .inr ⟨rfl, h⟩
      | rel h => exact .inl h

/-- `std::string`'s `operator<` is Lean's order on strings. -/
theorem stringLt_iff_lt {a b : String} : StringLt a b ↔ a < b :=
  lexLess_iff_lex.trans String.lt_iff_toList_lt.symm

/-! ## Btrees and `std::set_difference` -/

section
variable {κ α : Type} (lt : κ → κ → Prop) [DecidableRel lt] (key : α → κ)

/-- Inserting `x` into a btree whose contents are sorted by `lt` on `key`. An element with the
same key is replaced: `map[key] = value` of a `btree_map`, and `insert` of a `btree_set`, whose
elements are their own keys. -/
def btreeUpsert (x : α) : List α → List α
  | [] => [x]
  | y :: ys =>
    if lt (key x) (key y) then x :: y :: ys
    else if lt (key y) (key x) then y :: btreeUpsert x ys
    else x :: ys

/-- `std::set_difference` of two ranges sorted by `lt`: the elements of `xs` not in `ys`, in
order. Each element of `xs` passes over the smaller elements of `ys`, then is written out if
the next one is larger, and is consumed with it if they are equal. -/
def setDifference : List κ → List κ → List κ
  | [], _ => []
  | x :: xs, ys =>
    match ys.dropWhile fun y => decide (lt y x) with
    | [] => x :: setDifference xs []
    | y :: ys' => if lt x y then x :: setDifference xs (y :: ys') else setDifference xs ys'

end

section
variable {κ α β : Type} {lt : κ → κ → Prop} [DecidableRel lt] {key : α → κ}

theorem mem_btreeUpsert {x z : α} : ∀ {l : List α}, z ∈ btreeUpsert lt key x l → z = x ∨ z ∈ l
  | [], h => by simpa [btreeUpsert] using h
  | y :: ys, h => by
    unfold btreeUpsert at h
    split_ifs at h
    · simpa using h
    · rcases List.mem_cons.1 h with rfl | h
      · exact .inr (List.mem_cons_self _ _)
      · exact (mem_btreeUpsert h).imp_right (List.mem_cons_of_mem _)
    · exact (List.mem_cons.1 h).imp_right (List.mem_cons_of_mem _)

theorem self_mem_btreeUpsert (x : α) : ∀ l : List α, x ∈ btreeUpsert lt key x l
  | [] => List.mem_singleton_self x
  | y :: ys => by
    unfold btreeUpsert
    split_ifs
    · exact List.mem_cons_self _ _
    · exact List.mem_cons_of_mem _ (self_mem_btreeUpsert x ys)
    · exact List.mem_cons_self _ _

@[simp] theorem lookup_cons_ite [BEq κ] [LawfulBEq κ] [DecidableEq κ] (j k : κ) (w : β)
    (m : List (κ × β)) : ((j, w) :: m).lookup k = if k = j then some w else m.lookup k := by
  by_cases h : k = j
  · simp [List.lookup, h]
  · simp [List.lookup, beq_false_of_ne h, h]

theorem mem_dropWhile_lt_iff {x z : κ} {ys : List κ} (hz : ¬lt z x) :
    z ∈ ys.dropWhile (fun y => decide (lt y x)) ↔ z ∈ ys := by
  conv_rhs => rw [← List.takeWhile_append_dropWhile (fun y => decide (lt y x)) ys]
  rw [List.mem_append, or_iff_right fun h => hz (by simpa using List.mem_takeWhile_imp h)]

variable [IsStrictTotalOrder κ lt]

theorem lookup_btreeUpsert [BEq κ] [LawfulBEq κ] [DecidableEq κ]
    (k k' : κ) (v : β) : ∀ m : List (κ × β),
      (btreeUpsert lt Prod.fst (k, v) m).lookup k' = if k' = k then some v else m.lookup k'
  | [] => lookup_cons_ite k k' v []
  | (j, w) :: m => by
    unfold btreeUpsert
    dsimp only
    by_cases h₁ : lt k j
    · rw [if_pos h₁, lookup_cons_ite]
    by_cases h₂ : lt j k
    · rw [if_neg h₁, if_pos h₂, lookup_cons_ite, lookup_btreeUpsert, lookup_cons_ite]
      have hjk : j ≠ k := ne_of_irrefl h₂
      by_cases h : k' = k <;> simp [h, hjk.symm]
    · obtain rfl : k = j := ((trichotomous_of lt k j).resolve_left h₁).resolve_right h₂
      rw [if_neg h₁, if_neg h₂, lookup_cons_ite, lookup_cons_ite]
      split_ifs <;> rfl

/-- A `btree_map` filled by `map[f x] = x` for each `x` in order holds, at each key, the last
`x` written to it. -/
theorem lookup_foldl_btreeUpsert [BEq κ] [LawfulBEq κ] [DecidableEq κ] (f : α → κ)
    (k : κ) : ∀ (xs : List α) (m : List (κ × α)),
      (xs.foldl (fun m x => btreeUpsert lt Prod.fst (f x, x) m) m).lookup k =
        ((xs.reverse.find? fun x => f x = k) <|> m.lookup k)
  | [], m => by simp
  | x :: xs, m => by
    rw [List.foldl_cons, lookup_foldl_btreeUpsert f k xs, lookup_btreeUpsert,
      List.reverse_cons, List.find?_append]
    cases xs.reverse.find? fun x => f x = k <;> by_cases h : k = f x <;> simp [h, eq_comm]

theorem btreeUpsert_sorted (x : α) : ∀ {l : List α}, l.Sorted (fun a b => lt (key a) (key b)) →
    (btreeUpsert lt key x l).Sorted (fun a b => lt (key a) (key b))
  | [], _ => List.sorted_singleton x
  | y :: ys, h => by
    rw [List.sorted_cons] at h
    unfold btreeUpsert
    split_ifs with h₁ h₂
    · refine List.sorted_cons.2 ⟨fun z hz => ?_, List.sorted_cons.2 h⟩
      rcases List.mem_cons.1 hz with rfl | hz
      · exact h₁
      · exact trans_of lt h₁ (h.1 z hz)
    · refine List.sorted_cons.2 ⟨fun z hz => ?_, btreeUpsert_sorted x h.2⟩
      rcases mem_btreeUpsert hz with rfl | hz
      · exact h₂
      · exact h.1 z hz
    · have hxy : key x = key y := ((trichotomous_of lt _ _).resolve_left h₁).resolve_right h₂
      exact List.sorted_cons.2 ⟨fun z hz => hxy ▸ h.1 z hz, h.2⟩

theorem foldl_btreeUpsert_sorted (f : β → α) : ∀ (xs : List β) {l : List α},
    l.Sorted (fun a b => lt (key a) (key b)) →
      (xs.foldl (fun l x => btreeUpsert lt key (f x) l) l).Sorted (fun a b => lt (key a) (key b))
  | [], _, h => h
  | x :: xs, _, h => foldl_btreeUpsert_sorted f xs (btreeUpsert_sorted (f x) h)

theorem mem_btreeUpsert_id {x z : κ} : ∀ {l : List κ}, z ∈ btreeUpsert lt id x l ↔ z = x ∨ z ∈ l
  | [] => by simp [btreeUpsert]
  | y :: ys => by
    refine ⟨mem_btreeUpsert, ?_⟩
    rintro (rfl | hz)
    · exact self_mem_btreeUpsert z _
    · unfold btreeUpsert
      split_ifs with h₁ h₂
      · exact List.mem_cons_of_mem _ hz
      · rcases List.mem_cons.1 hz with rfl | hz
        · exact List.mem_cons_self _ _
        · exact List.mem_cons_of_mem _ (mem_btreeUpsert_id.2 (.inr hz))
      · have : x = y := ((trichotomous_of lt x y).resolve_left h₁).resolve_right h₂
        subst this
        exact hz

theorem mem_foldl_btreeUpsert_id (f : β → κ) (z : κ) : ∀ (xs : List β) (l : List κ),
    z ∈ xs.foldl (fun l x => btreeUpsert lt id (f x) l) l ↔ z ∈ l ∨ ∃ x ∈ xs, f x = z
  | [], l => by simp
  | x :: xs, l => by
    rw [List.foldl_cons, mem_foldl_btreeUpsert_id f z xs, mem_btreeUpsert_id]
    simp only [List.mem_cons, exists_eq_or_imp]
    tauto

theorem eq_of_sorted_of_mem_iff {γ : Type} {r : γ → γ → Prop} (hr : ∀ a b, r a b → ¬r b a) :
    ∀ {l₁ l₂ : List γ}, l₁.Sorted r → l₂.Sorted r → (∀ x, x ∈ l₁ ↔ x ∈ l₂) → l₁ = l₂
  | [], [], _, _, _ => rfl
  | [], b :: _, _, _, h => absurd ((h b).2 (List.mem_cons_self _ _)) (List.not_mem_nil b)
  | a :: _, [], _, _, h => absurd ((h a).1 (List.mem_cons_self _ _)) (List.not_mem_nil a)
  | a :: l₁, b :: l₂, h₁, h₂, h => by
    rw [List.sorted_cons] at h₁ h₂
    have hab : a = b := by
      rcases List.mem_cons.1 ((h a).1 (List.mem_cons_self _ _)) with hab | ha
      · exact hab
      rcases List.mem_cons.1 ((h b).2 (List.mem_cons_self _ _)) with hba | hb
      · exact hba.symm
      · exact absurd (h₂.1 a ha) (hr _ _ (h₁.1 b hb))
    subst hab
    have irrefl : ∀ x, ¬r x x := fun x hx => hr x x hx hx
    have tail : ∀ x, x ∈ l₁ ↔ x ∈ l₂ := fun x => by
      have ha₁ : x ∈ l₁ → x ≠ a := fun hx hxa => irrefl a (hxa ▸ h₁.1 x hx)
      have ha₂ : x ∈ l₂ → x ≠ a := fun hx hxa => irrefl a (hxa ▸ h₂.1 x hx)
      have hx := h x
      simp only [List.mem_cons] at hx
      exact ⟨fun h => (hx.1 (.inr h)).resolve_left (ha₁ h),
        fun h => (hx.2 (.inr h)).resolve_left (ha₂ h)⟩
    rw [eq_of_sorted_of_mem_iff hr h₁.2 h₂.2 tail]

/-! ## `std::set_difference` on sorted ranges -/

/-- On ranges sorted by `lt`, `std::set_difference` keeps the elements of `xs` not in `ys`. -/
theorem setDifference_eq_filter [DecidableEq κ] : ∀ {xs ys : List κ}, xs.Sorted lt →
    ys.Sorted lt → setDifference lt xs ys = xs.filter fun x => x ∉ ys
  | [], _, _, _ => rfl
  | x :: xs, ys, hxs, hys => by
    rw [List.sorted_cons] at hxs
    have hfilter : ((x :: xs).filter fun z => decide (z ∉ ys)) =
        (x :: xs).filter fun z => decide (z ∉ ys.dropWhile fun y => decide (lt y x)) :=
      List.filter_congr fun z hz => by
        have hzx : ¬lt z x := by
          rcases List.mem_cons.1 hz with rfl | hz
          · exact irrefl z
          · exact asymm (hxs.1 z hz)
        simp only [mem_dropWhile_lt_iff hzx]
    rw [hfilter]
    have hsorted : (ys.dropWhile fun y => decide (lt y x)).Sorted lt :=
      hys.sublist (List.dropWhile_suffix _).sublist
    have hhead := List.head_dropWhile_not (fun y => decide (lt y x)) ys
    unfold setDifference
    generalize (ys.dropWhile fun y => decide (lt y x)) = d at hsorted hhead ⊢
    cases d with
    | nil => simp [setDifference_eq_filter hxs.2 List.sorted_nil]
    | cons y ys' =>
      have hyx : ¬lt y x := by simpa using hhead (List.cons_ne_nil _ _)
      dsimp only
      by_cases hxy : lt x y
      · have hx : x ∉ y :: ys' := fun hx => by
          rcases List.mem_cons.1 hx with rfl | hx
          · exact irrefl x hxy
          · exact asymm hxy ((List.sorted_cons.1 hsorted).1 x hx)
        rw [if_pos hxy, setDifference_eq_filter hxs.2 hsorted,
          List.filter_cons_of_pos (by simpa using hx)]
      · obtain rfl : x = y := ((trichotomous_of lt x y).resolve_left hxy).resolve_right hyx
        rw [if_neg hxy, setDifference_eq_filter hxs.2 (List.sorted_cons.1 hsorted).2,
          List.filter_cons_of_neg (by simp)]
        refine List.filter_congr fun z hz => ?_
        have hzx : z ≠ x := fun e => irrefl x (e ▸ hxs.1 z hz)
        simp [hzx]

end

/-! ## Lookups in a map -/

section
variable {κ β : Type} {lt : κ → κ → Prop} [IsStrictTotalOrder κ lt]

theorem lookup_map_snd {γ : Type} [BEq κ] [LawfulBEq κ] [DecidableEq κ] (h : β → γ) (k : κ) :
    ∀ m : List (κ × β), (m.map fun p => (p.1, h p.2)).lookup k = (m.lookup k).map h
  | [] => rfl
  | (j, w) :: m => by
    rw [List.map_cons, lookup_cons_ite, lookup_cons_ite, lookup_map_snd h k m]
    split_ifs <;> rfl

theorem mem_of_lookup_eq_some [BEq κ] [LawfulBEq κ] [DecidableEq κ] {k : κ} {v : β} :
    ∀ {m : List (κ × β)}, m.lookup k = some v → (k, v) ∈ m
  | [], h => by simp [List.lookup] at h
  | (j, w) :: m, h => by
    rw [lookup_cons_ite] at h
    split_ifs at h with hk
    · cases h
      subst hk
      exact List.mem_cons_self _ _
    · exact List.mem_cons_of_mem _ (mem_of_lookup_eq_some h)

theorem lookup_eq_some_of_mem [BEq κ] [LawfulBEq κ] [DecidableEq κ] {p : κ × β} :
    ∀ {m : List (κ × β)}, m.Sorted (fun a b => lt a.1 b.1) → p ∈ m → m.lookup p.1 = some p.2
  | (j, w) :: m, hm, hp => by
    rw [List.sorted_cons] at hm
    rcases List.mem_cons.1 hp with rfl | hp
    · simp
    · have hne : p.1 ≠ j := fun e => irrefl j (e ▸ hm.1 p hp)
      rw [lookup_cons_ite, if_neg hne, lookup_eq_some_of_mem hm.2 hp]

theorem mem_iff_lookup_eq_some [BEq κ] [LawfulBEq κ] [DecidableEq κ] {p : κ × β}
    {m : List (κ × β)} (hm : m.Sorted (fun a b => lt a.1 b.1)) :
    p ∈ m ↔ m.lookup p.1 = some p.2 :=
  ⟨lookup_eq_some_of_mem hm, mem_of_lookup_eq_some⟩

theorem eq_of_lookup_eq [BEq κ] [LawfulBEq κ] [DecidableEq κ] {m₁ m₂ : List (κ × β)}
    (h₁ : m₁.Sorted (fun a b => lt a.1 b.1)) (h₂ : m₂.Sorted (fun a b => lt a.1 b.1))
    (h : ∀ k, m₁.lookup k = m₂.lookup k) : m₁ = m₂ :=
  eq_of_sorted_of_mem_iff (fun _ _ hab hba => asymm_of lt hab hba) h₁ h₂ fun p => by
    rw [mem_iff_lookup_eq_some h₁, mem_iff_lookup_eq_some h₂, h]

end

end PacketReplication
