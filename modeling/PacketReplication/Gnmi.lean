import PacketReplication.Absl

/-!
# The gNMI config set string

`ConstructGnmiConfigSetString(field, value)` of `gnmi_helper.h` builds the JSON text of a gNMI
set request for one leaf: `{"field":value}` when `T` is integral, `{"field":"value"}` when `T`
is `std::string`, and the empty string for any other `T`. Its two tests are run-time `if`s, not
`if constexpr`, so a `double`, an `absl::string_view` or a `const char*` literal compiles and
falls through both. Neither the field nor a string value is escaped.

* `intToString_injective`: `absl::StrCat` of an integer prints two integers alike only when
  they are equal.
* `constructGnmiConfigSetString_eq_iff`: when neither field holds a double quote, two calls give
  the same text exactly when both fall through to the empty string, or they pass the same field
  and the same value. So the text names the field and the value it was built from; a quote in
  the field breaks this (the example after the theorem).
-/

namespace PacketReplication

open Absl

/-- The argument types `ConstructGnmiConfigSetString` is instantiated at, as its two tests
`std::is_integral<T>` and `std::is_same<T, std::string>` see them; a value of any other type is
never read. -/
inductive GnmiValue
  | integral (value : Int)
  | string (value : String)
  | other
deriving DecidableEq, Repr

/-- `ConstructGnmiConfigSetString(field, value)`. -/
def constructGnmiConfigSetString (field : String) : GnmiValue → String
  | .integral value =>
    String.singleton '{' ++ "\"" ++ field ++ "\":" ++ toString value ++ String.singleton '}'
  | .string value =>
    String.singleton '{' ++ "\"" ++ field ++ "\":\"" ++ value ++ "\"" ++ String.singleton '}'
  | .other => ""

/-! ## Printed integers -/

theorem quote_not_mem_intToString (value : Int) : '"' ∉ (toString value).data := by
  cases value with
  | ofNat n =>
    exact fun h => forall_mem_toDigits (· ≠ '"') (by decide) (by decide) (by decide) _ _ h rfl
  | negSucc n =>
    intro h
    rcases List.mem_cons.1 h with h | h
    · exact absurd h (by decide)
    · exact forall_mem_toDigits (· ≠ '"') (by decide) (by decide) (by decide) _ _ h rfl

theorem intToString_injective {a b : Int} (h : toString a = toString b) : a = b := by
  have hd := congrArg String.data h
  have hminus : ∀ m n : Nat, Nat.toDigits 10 m ≠ '-' :: Nat.toDigits 10 n := fun m n hmn =>
    forall_mem_toDigits (· ≠ '-') (by decide) (by decide) (by decide) m '-'
      (hmn ▸ List.mem_cons_self _ _) rfl
  cases a with
  | ofNat m =>
    cases b with
    | ofNat n => exact congrArg _ (toDigits_injective (by decide) (by decide) hd)
    | negSucc n => exact absurd hd (hminus _ _)
  | negSucc m =>
    cases b with
    | ofNat n => exact absurd hd.symm (hminus _ _)
    | negSucc n =>
      have := toDigits_injective (by decide) (by decide) (List.cons_injective hd)
      rw [Int.negSucc.injEq]
      omega

/-! ## The text names its field and value -/

/-- What follows `{"field":` in the text of an integral or a string value. -/
def gnmiValueText : GnmiValue → List Char
  | .integral value => (toString value).data ++ ['}']
  | .string value => '"' :: (value.data ++ ['"', '}'])
  | .other => []

theorem constructGnmiConfigSetString_data (field : String) {value : GnmiValue}
    (hvalue : value ≠ .other) : (constructGnmiConfigSetString field value).data =
      '{' :: '"' :: (field.data ++ '"' :: ':' :: gnmiValueText value) := by
  cases value <;> simp_all [constructGnmiConfigSetString, gnmiValueText]

theorem gnmiValueText_injective {value value' : GnmiValue} (hvalue : value ≠ .other)
    (hvalue' : value' ≠ .other) (h : gnmiValueText value = gnmiValueText value') :
    value = value' := by
  cases value <;> cases value' <;> simp only [gnmiValueText] at h <;>
    simp only [ne_eq, not_true_eq_false] at hvalue hvalue'
  case integral.integral a b =>
    exact congrArg _ (intToString_injective (String.ext (List.append_cancel_right h)))
  case integral.string a s =>
    exact absurd (h ▸ List.mem_cons_self _ _) (by simpa using quote_not_mem_intToString a)
  case string.integral s a =>
    exact absurd (h.symm ▸ List.mem_cons_self _ _) (by simpa using quote_not_mem_intToString a)
  case string.string s s' =>
    exact congrArg _ (String.ext (List.append_cancel_right (List.cons_injective h)))

theorem eq_of_append_quote {a b x y : List Char} (ha : '"' ∉ a) (hb : '"' ∉ b)
    (h : a ++ '"' :: x = b ++ '"' :: y) : a = b ∧ x = y := by
  have hprefix : ∀ {l r : List Char}, '"' ∉ l → (l ++ '"' :: r).takeWhile (· != '"') = l :=
    fun hl => by
      rw [List.takeWhile_append_of_pos fun c hc => bne_iff_ne.2 (ne_of_mem_of_not_mem hc hl),
        List.takeWhile_cons_of_neg (by simp), List.append_nil]
  have hab : a = b := by rw [← hprefix ha, h, hprefix hb]
  subst hab
  exact ⟨rfl, List.cons_injective (List.append_cancel_left h)⟩

/-- **The text names the leaf it was built for.** When neither field holds a double quote, two
texts are equal exactly when both calls fall through to the empty string, or they pass the same
field and the same value. -/
theorem constructGnmiConfigSetString_eq_iff {field field' : String} {value value' : GnmiValue}
    (hfield : '"' ∉ field.data) (hfield' : '"' ∉ field'.data) :
    constructGnmiConfigSetString field value = constructGnmiConfigSetString field' value' ↔
      value = .other ∧ value' = .other ∨ field = field' ∧ value = value' := by
  constructor
  · intro h
    have hdata := congrArg String.data h
    by_cases hvalue : value = .other <;> by_cases hvalue' : value' = .other
    · exact .inl ⟨hvalue, hvalue'⟩
    · subst hvalue
      rw [constructGnmiConfigSetString_data field' hvalue'] at hdata
      exact absurd hdata (List.cons_ne_nil _ _).symm
    · subst hvalue'
      rw [constructGnmiConfigSetString_data field hvalue] at hdata
      exact absurd hdata (List.cons_ne_nil _ _)
    rw [constructGnmiConfigSetString_data field hvalue,
      constructGnmiConfigSetString_data field' hvalue'] at hdata
    obtain ⟨hf, ht⟩ :=
      eq_of_append_quote hfield hfield' (List.cons_injective (List.cons_injective hdata))
    exact .inr ⟨String.ext hf, gnmiValueText_injective hvalue hvalue' (List.cons_injective ht)⟩
  · rintro (⟨rfl, rfl⟩ | ⟨rfl, rfl⟩) <;> rfl

theorem constructGnmiConfigSetString_eq_iff_mtu :
    ('"' ∉ "mtu".data ∧ '"' ∉ "mtu".data) ∧
      (constructGnmiConfigSetString "mtu" (.integral 9100) =
          constructGnmiConfigSetString "mtu" (.string "9100") ↔
        GnmiValue.integral 9100 = .other ∧ GnmiValue.string "9100" = .other ∨
          "mtu" = "mtu" ∧ GnmiValue.integral 9100 = .string "9100") :=
  ⟨⟨by decide, by decide⟩, constructGnmiConfigSetString_eq_iff (by decide) (by decide)⟩

/-- Unescaped, a quote in the field makes two different leaves send the same text. -/
example : constructGnmiConfigSetString "a\":\"b" (.string "c") =
    constructGnmiConfigSetString "a" (.string "b\":\"c") := by decide

end PacketReplication
