import PacketReplication.Basic

/-!
# The absl number and string routines the translation relies on

`absl::Hex` and `absl::StrCat` print a `uint32` as unpadded lowercase hex or as decimal, both
through `Nat.toDigits`; `absl::SimpleHexAtoi` parses hex into a `uint32` as
`safe_strtou32_base` does at base 16; `absl::StartsWith` compares a prefix.

What the rest of the development uses: parsing undoes printing, with or without the `0x`
marker (`simpleHexAtoi_hex`, `simpleHexAtoi_zeroX_hex`), printed digits are never separators
(`digitChar_of_mem_toDigits`), and decimal printing is injective (`toString_injective`).
-/

namespace PacketReplication.Absl

/-- `absl::StartsWith(text, pfx)`. -/
def startsWith (text pfx : String) : Bool := pfx.data.isPrefixOf text.data

/-- `absl::ascii_isspace`. -/
def asciiIsspace (c : Char) : Bool :=
  c == ' ' || c == '\t' || c == '\n' || c == '\x0b' || c == '\x0c' || c == '\r'

/-- `kAsciiToInt`: a character's digit value in bases up to 36, and 36 for a non-digit. -/
def kAsciiToInt (c : Char) : Nat :=
  if c.isDigit then c.toNat - '0'.toNat
  else if c.isLower then c.toNat - 'a'.toNat + 10
  else if c.isUpper then c.toNat - 'A'.toNat + 10
  else 36

/-- The digit loop of `safe_parse_positive_int`: from `value`, fold in each digit, failing on a
non-digit and on any step past `vmax`. -/
def safeParsePositiveInt (base vmax : Nat) : Nat → List Char → Option Nat
  | value, [] => some value
  | value, c :: cs =>
    let digit := kAsciiToInt c
    if base ≤ digit then none
    else if vmax / base < value then none
    else if vmax - digit < value * base then none
    else safeParsePositiveInt base vmax (value * base + digit) cs

@[simp] theorem safeParsePositiveInt_nil (base vmax value : Nat) :
    safeParsePositiveInt base vmax value [] = some value := rfl

/-- `safe_parse_sign_and_base` at base 16: trim ASCII whitespace at both ends, take one sign,
and drop a `0x` or `0X` marker that has digits after it. Returns the sign and the digits. -/
def safeParseSignAndBase (text : List Char) : Option (Bool × List Char) :=
  match (text.dropWhile asciiIsspace).rdropWhile asciiIsspace with
  | [] => none
  | c :: rest =>
    let negative := c == '-'
    let text := if negative || c == '+' then rest else c :: rest
    if text = [] then none
    else if text.take 2 = ['0', 'x'] ∨ text.take 2 = ['0', 'X'] then
      if text.drop 2 = [] then none else some (negative, text.drop 2)
    else some (negative, text)

/-- `absl::SimpleHexAtoi` into a `uint32_t`: `safe_strtou32_base(text, out, 16)`, which also
rejects a negative sign. -/
def simpleHexAtoi (text : String) : Option UInt32 :=
  match safeParseSignAndBase text.data with
  | some (false, digits) => (safeParsePositiveInt 16 (2 ^ 32 - 1) 0 digits).map UInt32.ofNat
  | _ => none

/-- `absl::Hex(v)` as `absl::StrCat` prints it: lowercase hex digits, no padding. -/
def hex (v : UInt32) : String := (Nat.toDigits 16 v.toNat).asString

theorem startsWith_iff {text pfx : String} :
    startsWith text pfx = true ↔ ∃ rest, text = pfx ++ rest := by
  rw [startsWith, List.isPrefixOf_iff_prefix]
  constructor
  · rintro ⟨rest, h⟩
    exact ⟨⟨rest⟩, String.ext (by simp [String.data_append, h])⟩
  · rintro ⟨rest, rfl⟩
    exact ⟨rest.data, by simp [String.data_append]⟩

/-! ## `Nat.toDigits`, one digit at a time -/

theorem toDigitsCore_succ (b f n : Nat) (ds : List Char) :
    Nat.toDigitsCore b (f + 1) n ds =
      if n / b = 0 then Nat.digitChar (n % b) :: ds
      else Nat.toDigitsCore b f (n / b) (Nat.digitChar (n % b) :: ds) := rfl

theorem toDigitsCore_acc (b : Nat) :
    ∀ fuel n ds, Nat.toDigitsCore b fuel n ds = Nat.toDigitsCore b fuel n [] ++ ds := by
  intro fuel
  induction fuel with
  | zero => simp [Nat.toDigitsCore]
  | succ fuel ih =>
    intro n ds
    rw [toDigitsCore_succ, toDigitsCore_succ]
    split_ifs
    · simp
    · rw [ih _ (_ :: ds), ih _ [_]]
      simp

theorem div_lt_of_div_ne_zero {b n : Nat} (hb : 2 ≤ b) (h : ¬n / b = 0) : n / b < n :=
  Nat.div_lt_self (Nat.pos_of_ne_zero (by rintro rfl; simp at h)) hb

theorem toDigitsCore_fuel {b : Nat} (hb : 2 ≤ b) :
    ∀ f₁ f₂ n ds, n < f₁ → n < f₂ →
      Nat.toDigitsCore b f₁ n ds = Nat.toDigitsCore b f₂ n ds := by
  intro f₁
  induction f₁ with
  | zero => intro _ _ _ h; omega
  | succ f₁ ih =>
    intro f₂ n ds h₁ h₂
    obtain ⟨f₂, rfl⟩ : ∃ f, f₂ = f + 1 := ⟨f₂ - 1, by omega⟩
    rw [toDigitsCore_succ, toDigitsCore_succ]
    split_ifs with h
    · rfl
    · have := div_lt_of_div_ne_zero hb h
      exact ih _ _ _ (by omega) (by omega)

theorem toDigits_eq_append {b : Nat} (hb : 2 ≤ b) (n : Nat) :
    Nat.toDigits b n =
      (if n / b = 0 then [] else Nat.toDigits b (n / b)) ++ [Nat.digitChar (n % b)] := by
  rw [Nat.toDigits, toDigitsCore_succ]
  split_ifs with h
  · rfl
  · have := div_lt_of_div_ne_zero hb h
    rw [toDigitsCore_acc, toDigitsCore_fuel hb n (n / b + 1) _ _ (by omega) (by omega)]
    rfl

theorem digitChar_of_mem_toDigits {b : Nat} (hb : 2 ≤ b) (hb16 : b ≤ 16) (n : Nat) {c : Char}
    (hc : c ∈ Nat.toDigits b n) : ∃ d : Fin 16, c = Nat.digitChar d := by
  induction n using Nat.strongRecOn with
  | ind n ih =>
    rw [toDigits_eq_append hb] at hc
    rcases List.mem_append.mp hc with hc | hc
    · split_ifs at hc with h
      · simp at hc
      · exact ih _ (div_lt_of_div_ne_zero hb h) hc
    · exact ⟨⟨n % b, by have := Nat.mod_lt n (show 0 < b by omega); omega⟩,
        List.mem_singleton.mp hc⟩

theorem forall_mem_toDigits (p : Char → Prop) (hp : ∀ d : Fin 16, p (Nat.digitChar d)) {b : Nat}
    (hb : 2 ≤ b) (hb16 : b ≤ 16) (n : Nat) : ∀ c ∈ Nat.toDigits b n, p c := fun _ hc => by
  obtain ⟨d, rfl⟩ := digitChar_of_mem_toDigits hb hb16 n hc
  exact hp d

theorem toDigits_ne_nil {b : Nat} (hb : 2 ≤ b) (n : Nat) : Nat.toDigits b n ≠ [] := by
  rw [toDigits_eq_append hb]
  simp

/-! ## Parsing printed digits -/

theorem kAsciiToInt_digitChar : ∀ d : Fin 16, kAsciiToInt (Nat.digitChar d) = d := by decide

theorem safeParsePositiveInt_append (base vmax : Nat) :
    ∀ (l₁ l₂ : List Char) value, safeParsePositiveInt base vmax value (l₁ ++ l₂) =
      (safeParsePositiveInt base vmax value l₁).bind (safeParsePositiveInt base vmax · l₂) := by
  intro l₁
  induction l₁ with
  | nil => simp
  | cons c cs ih =>
    intro l₂ value
    simp only [List.cons_append, safeParsePositiveInt]
    split_ifs <;> simp [ih]

theorem safeParsePositiveInt_digitChar {base vmax value d : Nat} (hb16 : base ≤ 16)
    (hd : d < base) (hv : value * base + d ≤ vmax) :
    safeParsePositiveInt base vmax value [Nat.digitChar d] = some (value * base + d) := by
  have hdigit : kAsciiToInt (Nat.digitChar d) = d := kAsciiToInt_digitChar ⟨d, by omega⟩
  have hdiv : value ≤ vmax / base :=
    (Nat.le_div_iff_mul_le (by omega)).mpr (by omega)
  simp only [safeParsePositiveInt, hdigit]
  rw [if_neg (by omega), if_neg (by omega), if_neg (by omega)]

theorem safeParsePositiveInt_toDigits {base vmax : Nat} (hb : 2 ≤ base) (hb16 : base ≤ 16) :
    ∀ n, n ≤ vmax → safeParsePositiveInt base vmax 0 (Nat.toDigits base n) = some n := by
  intro n
  induction n using Nat.strongRecOn with
  | ind n ih =>
    intro hn
    have hmod : n % base < base := Nat.mod_lt n (by omega)
    have hsplit : n / base * base + n % base = n := Nat.div_add_mod' n base
    rw [toDigits_eq_append hb, safeParsePositiveInt_append]
    split_ifs with h
    · rw [h, Nat.zero_mul, Nat.zero_add] at hsplit
      have hd : safeParsePositiveInt base vmax 0 [Nat.digitChar (n % base)] =
          some (0 * base + n % base) := safeParsePositiveInt_digitChar hb16 hmod (by omega)
      rw [show safeParsePositiveInt base vmax 0 [] = some 0 from rfl, Option.some_bind, hd,
        Nat.zero_mul, Nat.zero_add, hsplit]
    · rw [ih _ (div_lt_of_div_ne_zero hb h) (le_trans (Nat.div_le_self n base) hn),
        Option.some_bind, safeParsePositiveInt_digitChar hb16 hmod (by omega), hsplit]

theorem toDigits_injective {base : Nat} (hb : 2 ≤ base) (hb16 : base ≤ 16) {m n : Nat}
    (h : Nat.toDigits base m = Nat.toDigits base n) : m = n := by
  have hm : safeParsePositiveInt base (max m n) 0 (Nat.toDigits base m) = some m :=
    safeParsePositiveInt_toDigits hb hb16 m (le_max_left _ _)
  rw [h, safeParsePositiveInt_toDigits hb hb16 n (le_max_right _ _)] at hm
  exact (Option.some.inj hm).symm

theorem toString_injective {a b : UInt32} (h : toString a = toString b) : a = b := by
  have hd : Nat.toDigits 10 a.toNat = Nat.toDigits 10 b.toNat := congrArg String.data h
  exact UInt32.toNat.inj (toDigits_injective (by decide) (by decide) hd)

/-! ## Whitespace, sign and marker -/

theorem dropWhile_of_forall {p : Char → Bool} {l : List Char} (h : ∀ c ∈ l, p c = false) :
    l.dropWhile p = l := by
  cases l with
  | nil => rfl
  | cons c cs => simp [List.dropWhile_cons, h c (List.mem_cons_self _ _)]

theorem hexDigit_plain {c : Char} (hc : kAsciiToInt c < 16) :
    asciiIsspace c = false ∧ c ≠ '-' ∧ c ≠ '+' ∧ c ≠ 'x' ∧ c ≠ 'X' := by
  refine ⟨Bool.eq_false_iff.2 fun h => ?_, ?_, ?_, ?_, ?_⟩
  · simp only [asciiIsspace, Bool.or_eq_true, beq_iff_eq, or_assoc] at h
    rcases h with rfl | rfl | rfl | rfl | rfl | rfl <;> exact absurd hc (by decide)
  all_goals rintro rfl; exact absurd hc (by decide)

theorem take_two_ne_marker {digits : List Char} (hd : ∀ c ∈ digits, kAsciiToInt c < 16) :
    ¬(digits.take 2 = ['0', 'x'] ∨ digits.take 2 = ['0', 'X']) := by
  rintro (h | h)
  · exact absurd (hd 'x' (List.mem_of_mem_take (by rw [h]; simp))) (by decide)
  · exact absurd (hd 'X' (List.mem_of_mem_take (by rw [h]; simp))) (by decide)

theorem not_isspace_of_hexText {sign marker digits : List Char} (hsign : sign = [] ∨ sign = ['+'])
    (hmarker : marker = [] ∨ marker = ['0', 'x'] ∨ marker = ['0', 'X'])
    (hd : ∀ c ∈ digits, kAsciiToInt c < 16) :
    ∀ c ∈ sign ++ marker ++ digits, asciiIsspace c = false := by
  simp only [List.mem_append]
  rintro c ((hc | hc) | hc)
  · rcases hsign with rfl | rfl <;> revert c <;> decide
  · rcases hmarker with rfl | rfl | rfl <;> revert c <;> decide
  · exact (hexDigit_plain (hd c hc)).1

theorem rdropWhile_append_rtakeWhile {α : Type} (p : α → Bool) (l : List α) :
    l.rdropWhile p ++ l.rtakeWhile p = l := by
  rw [List.rdropWhile, List.rtakeWhile, ← List.reverse_append, List.takeWhile_append_dropWhile,
    List.reverse_reverse]

theorem dropWhile_append_of_forall {α : Type} {p : α → Bool} {xs : List α}
    (h : ∀ x ∈ xs, p x = true) (ys : List α) : (xs ++ ys).dropWhile p = ys.dropWhile p := by
  rw [List.dropWhile_append, if_pos (by simpa [List.dropWhile_eq_nil_iff] using h)]

theorem trim_append {lead core trail : List Char}
    (hsp : ∀ c ∈ lead ++ trail, asciiIsspace c = true)
    (hcore : ∀ c ∈ core, asciiIsspace c = false) :
    ((lead ++ core ++ trail).dropWhile asciiIsspace).rdropWhile asciiIsspace = core := by
  have hlead : ∀ c ∈ lead, asciiIsspace c = true := fun c hc => hsp c (List.mem_append_left _ hc)
  have htrail : ∀ c ∈ trail, asciiIsspace c = true :=
    fun c hc => hsp c (List.mem_append_right _ hc)
  rw [List.append_assoc, dropWhile_append_of_forall hlead]
  cases core with
  | nil => simp [List.dropWhile_eq_nil_iff.2 htrail]
  | cons c cs =>
    rw [List.cons_append, List.dropWhile_cons_of_neg (by simp [hcore c (List.mem_cons_self _ _)]),
      ← List.cons_append, List.rdropWhile, List.reverse_append,
      dropWhile_append_of_forall fun x hx => htrail x (List.mem_reverse.1 hx),
      dropWhile_of_forall fun x hx => hcore x (List.mem_reverse.1 hx), List.reverse_reverse]

theorem safeParseSignAndBase_hexText {lead sign marker digits trail : List Char}
    (hsp : ∀ c ∈ lead ++ trail, asciiIsspace c = true) (hsign : sign = [] ∨ sign = ['+'])
    (hmarker : marker = [] ∨ marker = ['0', 'x'] ∨ marker = ['0', 'X']) (hne : digits ≠ [])
    (hd : ∀ c ∈ digits, kAsciiToInt c < 16) :
    safeParseSignAndBase (lead ++ (sign ++ marker ++ digits) ++ trail) = some (false, digits) := by
  unfold safeParseSignAndBase
  rw [trim_append hsp (not_isspace_of_hexText hsign hmarker hd)]
  rcases hsign with rfl | rfl
  · rcases hmarker with rfl | rfl | rfl
    · obtain ⟨c, rest, rfl⟩ := List.exists_cons_of_ne_nil hne
      obtain ⟨-, hminus, hplus, -⟩ := hexDigit_plain (hd c (List.mem_cons_self _ _))
      simp only [List.nil_append, List.append_nil, beq_false_of_ne hminus,
        beq_false_of_ne hplus, Bool.false_or, Bool.false_eq_true, if_false]
      rw [if_neg (List.cons_ne_nil _ _), if_neg (take_two_ne_marker hd)]
    all_goals simp [hne]
  · rcases hmarker with rfl | rfl | rfl
    · have hsign : ('+' == '-' || '+' == '+') = true := by decide
      simp only [List.singleton_append, List.append_nil, hsign, if_true]
      rw [if_neg hne, if_neg (take_two_ne_marker hd)]
      rfl
    all_goals simp [hne]

theorem eq_of_marker_step {text digits : List Char} {negative : Bool}
    (h : (if text = [] then none
      else if text.take 2 = ['0', 'x'] ∨ text.take 2 = ['0', 'X'] then
        if text.drop 2 = [] then none else some (negative, text.drop 2)
      else some (negative, text)) = some (false, digits)) :
    negative = false ∧ ∃ marker, text = marker ++ digits ∧
      (marker = [] ∨ marker = ['0', 'x'] ∨ marker = ['0', 'X']) ∧ digits ≠ [] := by
  split_ifs at h with h₁ h₂ h₃ <;> obtain ⟨rfl, rfl⟩ := Prod.mk.inj (Option.some.inj h)
  · exact ⟨rfl, text.take 2, (List.take_append_drop 2 text).symm, .inr h₂, h₃⟩
  · exact ⟨rfl, [], rfl, .inl rfl, h₁⟩

theorem eq_of_safeParseSignAndBase {text digits : List Char}
    (h : safeParseSignAndBase text = some (false, digits)) :
    ∃ lead sign marker trail, text = lead ++ (sign ++ marker ++ digits) ++ trail ∧
      (∀ c ∈ lead ++ trail, asciiIsspace c = true) ∧ (sign = [] ∨ sign = ['+']) ∧
      (marker = [] ∨ marker = ['0', 'x'] ∨ marker = ['0', 'X']) ∧ digits ≠ [] := by
  have hsp : ∀ c ∈ text.takeWhile asciiIsspace ++
      (text.dropWhile asciiIsspace).rtakeWhile asciiIsspace, asciiIsspace c = true := by
    simp only [List.mem_append]
    rintro c (hc | hc)
    · exact List.mem_takeWhile_imp hc
    · exact List.mem_rtakeWhile_imp hc
  unfold safeParseSignAndBase at h
  have hsplit := (List.takeWhile_append_dropWhile asciiIsspace text).symm
  rw [← rdropWhile_append_rtakeWhile asciiIsspace (text.dropWhile asciiIsspace)] at hsplit
  generalize (text.dropWhile asciiIsspace).rdropWhile asciiIsspace = core at h hsplit
  cases core with
  | nil => cases h
  | cons c rest =>
    obtain ⟨hneg, marker, htext, hmarker, hne⟩ := eq_of_marker_step h
    have hminus : c ≠ '-' := by simpa using hneg
    refine ⟨_, if c = '+' then ['+'] else [], marker, _, hsplit.trans ?_, hsp,
      by split_ifs <;> simp, hmarker, hne⟩
    rw [List.append_assoc]
    congr 1
    by_cases hplus : c = '+'
    · subst hplus
      simp only [beq_self_eq_true, Bool.or_true, if_true] at htext
      simp [htext]
    · simp only [beq_false_of_ne hminus, beq_false_of_ne hplus, Bool.or_false,
        Bool.false_eq_true, if_false] at htext
      simp [hplus, ← htext]

/-! ## `SimpleHexAtoi` reads back `Hex` -/

theorem hexDigit_of_mem_toDigits (n : Nat) : ∀ c ∈ Nat.toDigits 16 n, kAsciiToInt c < 16 :=
  forall_mem_toDigits (kAsciiToInt · < 16) (fun d => (kAsciiToInt_digitChar d).trans_lt d.isLt)
    (by decide) le_rfl n

theorem ofNat_toNat (v : UInt32) : UInt32.ofNat v.toNat = v :=
  UInt32.toNat.inj (UInt32.toNat_ofNat_of_lt v.toNat_lt_size)

theorem safeParsePositiveInt_hex (v : UInt32) :
    (safeParsePositiveInt 16 (2 ^ 32 - 1) 0 (Nat.toDigits 16 v.toNat)).map UInt32.ofNat =
      some v := by
  have := v.toNat_lt_size
  rw [safeParsePositiveInt_toDigits (by decide) le_rfl _ (by simp [UInt32.size] at this ⊢; omega)]
  simp [ofNat_toNat]

theorem simpleHexAtoi_hex (v : UInt32) : simpleHexAtoi (hex v) = some v := by
  have hsb := @safeParseSignAndBase_hexText [] [] [] _ [] (by simp) (.inl rfl) (.inl rfl)
    (toDigits_ne_nil (by decide) v.toNat) (hexDigit_of_mem_toDigits _)
  simp only [List.nil_append, List.append_nil] at hsb
  simp only [simpleHexAtoi, hex, List.asString, hsb, safeParsePositiveInt_hex]

theorem simpleHexAtoi_zeroX_hex (v : UInt32) : simpleHexAtoi ("0x" ++ hex v) = some v := by
  have hsb := @safeParseSignAndBase_hexText [] [] ['0', 'x'] _ [] (by simp) (.inl rfl)
    (.inr (.inl rfl)) (toDigits_ne_nil (by decide) v.toNat) (hexDigit_of_mem_toDigits _)
  have hdata : ("0x" ++ hex v).data = '0' :: 'x' :: Nat.toDigits 16 v.toNat := by
    simp [hex, String.data_append, List.asString]
  simp only [List.nil_append, List.append_nil, List.cons_append] at hsb
  simp only [simpleHexAtoi, hdata, hsb, safeParsePositiveInt_hex]

theorem hex_injective {v w : UInt32} (h : hex v = hex w) : v = w := by
  have := congrArg simpleHexAtoi h
  rwa [simpleHexAtoi_hex, simpleHexAtoi_hex, Option.some.injEq] at this

theorem append_left_cancel {a b c : String} (h : a ++ b = a ++ c) : b = c := by
  have hdata := congrArg String.data h
  rw [String.data_append, String.data_append] at hdata
  exact String.ext (List.append_cancel_left hdata)

/-! ## Separators never occur in printed numbers -/

theorem colon_not_mem_hex (v : UInt32) : ':' ∉ (hex v).data := fun h =>
  forall_mem_toDigits (· ≠ ':') (by decide) (by decide) le_rfl _ _ h rfl

theorem underscore_not_mem_toString (v : UInt32) : '_' ∉ (toString v).data := fun h =>
  forall_mem_toDigits (· ≠ '_') (by decide) (by decide) (by decide) _ _ h rfl

theorem space_not_mem_toString (v : UInt32) : ' ' ∉ (toString v).data := fun h =>
  forall_mem_toDigits (· ≠ ' ') (by decide) (by decide) (by decide) _ _ h rfl

/-! ## The digit loop never wraps -/

/-- The value of a run of digits in `base`, accumulated from `value` by `value * base + digit`
for each digit, as the loop of `safe_parse_positive_int` does without its guards. -/
def digitsValue (base value : Nat) (digits : List Char) : Nat :=
  digits.foldl (fun value c => value * base + kAsciiToInt c) value

@[simp] theorem digitsValue_nil (base value : Nat) : digitsValue base value [] = value := rfl

@[simp] theorem digitsValue_cons (base value : Nat) (c : Char) (cs : List Char) :
    digitsValue base value (c :: cs) = digitsValue base (value * base + kAsciiToInt c) cs := rfl

theorem le_digitsValue {base : Nat} (hb : 0 < base) :
    ∀ (digits : List Char) (value : Nat), value ≤ digitsValue base value digits
  | [], _ => le_rfl
  | c :: cs, value => by
    have := Nat.le_mul_of_pos_right value hb
    exact le_trans (by omega) (le_digitsValue hb cs (value * base + kAsciiToInt c))

/-- **The guards of `safe_parse_positive_int` are exact.** From a value within `vmax`, the loop
returns the value of the digits when each character is a digit of the base and that value is
within `vmax`, and fails otherwise. Each guard fails exactly when the next step would pass
`vmax`, so the loop never returns a value that overflowed. (`vmax` is the largest value of the
target type, never below the base.) -/
theorem safeParsePositiveInt_eq {base vmax : Nat} (hb : 0 < base) (hbv : base ≤ vmax) :
    ∀ (digits : List Char) {value : Nat}, value ≤ vmax →
      safeParsePositiveInt base vmax value digits =
        if (∀ c ∈ digits, kAsciiToInt c < base) ∧ digitsValue base value digits ≤ vmax then
          some (digitsValue base value digits)
        else none
  | [], value, hv => by simp [hv]
  | c :: cs, value, hv => by
    have hge := le_digitsValue hb cs (value * base + kAsciiToInt c)
    simp only [safeParsePositiveInt, digitsValue_cons, List.forall_mem_cons]
    by_cases hd : base ≤ kAsciiToInt c
    · rw [if_pos hd, if_neg fun h => absurd h.1.1 (by omega)]
    by_cases hover : vmax / base < value
    · have : vmax < value * base := (Nat.div_lt_iff_lt_mul hb).1 hover
      rw [if_neg hd, if_pos hover, if_neg fun h => absurd h.2 (by omega)]
    by_cases hover' : vmax - kAsciiToInt c < value * base
    · rw [if_neg hd, if_neg hover, if_pos hover', if_neg fun h => absurd h.2 (by omega)]
    · rw [if_neg hd, if_neg hover, if_neg hover', safeParsePositiveInt_eq hb hbv cs (by omega)]
      simp only [Nat.lt_of_not_le hd, true_and]

/-! ## What `SimpleHexAtoi` accepts -/

/-- The texts `SimpleHexAtoi` reads into a `uint32_t`, with their values: ASCII whitespace, an
optional `+`, an optional `0x` or `0X`, one or more hex digits of either case, ASCII
whitespace. -/
def HexText (text : List Char) (value : Nat) : Prop :=
  ∃ lead sign marker digits trail, text = lead ++ (sign ++ marker ++ digits) ++ trail ∧
    (∀ c ∈ lead ++ trail, asciiIsspace c = true) ∧ (sign = [] ∨ sign = ['+']) ∧
    (marker = [] ∨ marker = ['0', 'x'] ∨ marker = ['0', 'X']) ∧ digits ≠ [] ∧
    (∀ c ∈ digits, kAsciiToInt c < 16) ∧ digitsValue 16 0 digits = value

/-- `SimpleHexAtoi` accepts exactly the hex texts whose value fits in 32 bits, and returns that
value. -/
theorem simpleHexAtoi_eq_some_iff {text : String} {v : UInt32} :
    simpleHexAtoi text = some v ↔ HexText text.data v.toNat := by
  have hloop := fun digits => safeParsePositiveInt_eq (show 0 < 16 by norm_num)
    (show 16 ≤ 2 ^ 32 - 1 by norm_num) digits (Nat.zero_le _)
  have hsize : ∀ n, n ≤ 2 ^ 32 - 1 ↔ n < UInt32.size := fun n => by
    simp only [UInt32.size]; omega
  constructor
  · intro h
    unfold simpleHexAtoi at h
    split at h
    · next digits hsb =>
      obtain ⟨lead, sign, marker, trail, htext, hsp, hsign, hmarker, hne⟩ :=
        eq_of_safeParseSignAndBase hsb
      rw [hloop] at h
      split_ifs at h with hok
      · refine ⟨lead, sign, marker, digits, trail, htext, hsp, hsign, hmarker, hne, hok.1, ?_⟩
        rw [← Option.some.inj h, UInt32.toNat_ofNat_of_lt ((hsize _).1 hok.2)]
      · cases h
    · cases h
  · rintro ⟨lead, sign, marker, digits, trail, htext, hsp, hsign, hmarker, hne, hd, hval⟩
    rw [simpleHexAtoi, htext, safeParseSignAndBase_hexText hsp hsign hmarker hne hd]
    simp only
    rw [hloop, if_pos ⟨hd, hval ▸ (hsize _).2 v.toNat_lt_size⟩, Option.map_some', hval,
      ofNat_toNat]

theorem simpleHexAtoi_hexDigits {marker digits : List Char}
    (hmarker : marker = [] ∨ marker = ['0', 'x'] ∨ marker = ['0', 'X']) (hne : digits ≠ [])
    (hd : ∀ c ∈ digits, kAsciiToInt c < 16) :
    simpleHexAtoi ⟨marker ++ digits⟩ =
      if digitsValue 16 0 digits < 2 ^ 32 then some (UInt32.ofNat (digitsValue 16 0 digits))
      else none := by
  have hfits : digitsValue 16 0 digits ≤ 2 ^ 32 - 1 ↔ digitsValue 16 0 digits < 2 ^ 32 :=
    Nat.le_sub_one_iff_lt (by norm_num)
  have hsb : safeParseSignAndBase (marker ++ digits) = some (false, digits) := by
    simpa using @safeParseSignAndBase_hexText [] [] marker digits [] (by simp) (.inl rfl)
      hmarker hne hd
  have hparse : simpleHexAtoi ⟨marker ++ digits⟩ =
      (safeParsePositiveInt 16 (2 ^ 32 - 1) 0 digits).map UInt32.ofNat := by
    simp only [simpleHexAtoi, hsb]
  rw [hparse, safeParsePositiveInt_eq (by norm_num) (by norm_num) digits (Nat.zero_le _)]
  simp only [and_iff_right hd, hfits]
  split_ifs <;> rfl

end PacketReplication.Absl
