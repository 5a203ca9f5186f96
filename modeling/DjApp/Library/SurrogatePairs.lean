import DjApp.Library.Utf16

/-! Well-formed UTF-16, unit by unit: every surrogate stands next to the one it pairs with. -/

set_option autoImplicit false

namespace DjApp.Library.Utf16

structure WellFormed (units : List UInt16) : Prop where
  followed : ∀ index high, units[index]? = some high → isHighSurrogate high = true →
    ∃ low, units[index + 1]? = some low ∧ isLowSurrogate low = true
  preceded : ∀ index low, units[index]? = some low → isLowSurrogate low = true →
    ∃ before high, before + 1 = index ∧ units[before]? = some high ∧ isHighSurrogate high = true

variable {units left right : List UInt16} {unit high low : UInt16}

theorem isSurrogate_toNat :
    isSurrogate unit.toNat = (isHighSurrogate unit || isLowSurrogate unit) := by
  rw [Bool.eq_iff_iff, Bool.or_eq_true, isSurrogate_iff, isHighSurrogate_iff, isLowSurrogate_iff]
  omega

theorem not_isLowSurrogate (isHigh : isHighSurrogate high = true) :
    isLowSurrogate high = false := by
  rw [isHighSurrogate_iff] at isHigh
  rw [Bool.eq_false_iff, ne_eq, isLowSurrogate_iff]
  omega

theorem WellFormed.nil : WellFormed [] where
  followed _ _ found := by cases found
  preceded _ _ found := by cases found

theorem WellFormed.single (plain : isSurrogate unit.toNat = false) : WellFormed [unit] := by
  rw [isSurrogate_toNat, Bool.or_eq_false_iff] at plain
  obtain ⟨notHigh, notLow⟩ := plain
  constructor
  case followed =>
    intro index high found isHigh
    obtain ⟨_, rfl⟩ : index = 0 ∧ unit = high := by simpa using List.getElem?_eq_some_iff.mp found
    rw [notHigh] at isHigh
    cases isHigh
  case preceded =>
    intro index low found isLow
    obtain ⟨_, rfl⟩ : index = 0 ∧ unit = low := by simpa using List.getElem?_eq_some_iff.mp found
    rw [notLow] at isLow
    cases isLow

theorem WellFormed.pair (isHigh : isHighSurrogate high = true) (isLow : isLowSurrogate low = true) :
    WellFormed [high, low] := by
  constructor
  case followed =>
    intro index unit found isHigh'
    match index with
    | 0 => exact ⟨low, rfl, isLow⟩
    | 1 =>
        cases found
        rw [not_isLowSurrogate isHigh'] at isLow
        cases isLow
    | index + 2 => cases found
  case preceded =>
    intro index unit found isLow'
    match index with
    | 0 =>
        cases found
        rw [not_isLowSurrogate isHigh] at isLow'
        cases isLow'
    | 1 => exact ⟨0, high, rfl, rfl, isHigh⟩
    | index + 2 => cases found

theorem getElem?_append_length_add (left right : List UInt16) (index : ℕ) :
    (left ++ right)[left.length + index]? = right[index]? := by
  rw [List.getElem?_append_right (Nat.le_add_right _ _), Nat.add_sub_cancel_left]

theorem WellFormed.append (first : WellFormed left) (second : WellFormed right) :
    WellFormed (left ++ right) := by
  constructor
  case followed =>
    intro index high found isHigh
    rcases Nat.lt_or_ge index left.length with inside | outside
    · rw [List.getElem?_append_left inside] at found
      obtain ⟨low, next, isLow⟩ := first.followed index high found isHigh
      have within := (List.getElem?_eq_some_iff.mp next).1
      exact ⟨low, (List.getElem?_append_left within).trans next, isLow⟩
    · obtain ⟨offset, rfl⟩ := Nat.exists_eq_add_of_le outside
      rw [getElem?_append_length_add] at found
      obtain ⟨low, next, isLow⟩ := second.followed offset high found isHigh
      exact ⟨low, (getElem?_append_length_add _ _ (offset + 1)).trans next, isLow⟩
  case preceded =>
    intro index low found isLow
    rcases Nat.lt_or_ge index left.length with inside | outside
    · rw [List.getElem?_append_left inside] at found
      obtain ⟨before, high, next, earlier, isHigh⟩ := first.preceded index low found isLow
      have within := (List.getElem?_eq_some_iff.mp earlier).1
      exact ⟨before, high, next, (List.getElem?_append_left within).trans earlier, isHigh⟩
    · obtain ⟨offset, rfl⟩ := Nat.exists_eq_add_of_le outside
      rw [getElem?_append_length_add] at found
      obtain ⟨before, high, rfl, earlier, isHigh⟩ := second.preceded offset low found isLow
      exact ⟨left.length + before, high, rfl, (getElem?_append_length_add _ _ _).trans earlier, isHigh⟩

/-- No pair stands across the end of a well-formed string. -/
theorem WellFormed.of_append (first : WellFormed left) (whole : WellFormed (left ++ right)) :
    WellFormed right := by
  constructor
  case followed =>
    intro index high found isHigh
    rw [← getElem?_append_length_add left] at found
    obtain ⟨low, next, isLow⟩ := whole.followed _ high found isHigh
    exact ⟨low, (getElem?_append_length_add _ _ (index + 1)).symm.trans next, isLow⟩
  case preceded =>
    intro index low found isLow
    rw [← getElem?_append_length_add left] at found
    obtain ⟨before, high, next, earlier, isHigh⟩ := whole.preceded _ low found isLow
    rcases Nat.lt_or_ge before left.length with inside | outside
    · -- A high surrogate on the left is followed by a low one on the left.
      rw [List.getElem?_append_left inside] at earlier
      obtain ⟨_, follows, _⟩ := first.followed before high earlier isHigh
      have within := (List.getElem?_eq_some_iff.mp follows).1
      omega
    · obtain ⟨offset, rfl⟩ := Nat.exists_eq_add_of_le outside
      rw [getElem?_append_length_add] at earlier
      exact ⟨offset, high, by omega, earlier, isHigh⟩

theorem WellFormed.append_iff (first : WellFormed left) :
    WellFormed (left ++ right) ↔ WellFormed right :=
  ⟨first.of_append, first.append⟩

theorem WellFormed.cons_iff (plain : isSurrogate unit.toNat = false) :
    WellFormed (unit :: right) ↔ WellFormed right :=
  (WellFormed.single plain).append_iff

theorem WellFormed.cons_cons_iff (isHigh : isHighSurrogate high = true)
    (isLow : isLowSurrogate low = true) : WellFormed (high :: low :: right) ↔ WellFormed right :=
  (WellFormed.pair isHigh isLow).append_iff

theorem WellFormed.of_plain (plain : ∀ unit ∈ units, isSurrogate unit.toNat = false) :
    WellFormed units := by
  induction units with
  | nil => exact .nil
  | cons unit rest ih =>
      obtain ⟨first, others⟩ := List.forall_mem_cons.mp plain
      exact (WellFormed.cons_iff first).mpr (ih others)

/-- A string does not begin with a surrogate that has no partner. -/
theorem not_wellFormed_cons (surrogate : isSurrogate unit.toNat = true)
    (alone : ∀ next, right.head? = some next →
      (isHighSurrogate unit && isLowSurrogate next) = false) : ¬ WellFormed (unit :: right) := by
  intro wellFormed
  rw [isSurrogate_toNat, Bool.or_eq_true] at surrogate
  rcases surrogate with isHigh | isLow
  · obtain ⟨low, next, isLow⟩ := wellFormed.followed 0 unit rfl isHigh
    have head : right.head? = some low := by
      rw [List.head?_eq_getElem?]
      exact next
    have apart := alone low head
    rw [isHigh, isLow] at apart
    cases apart
  · obtain ⟨before, _, next, _⟩ := wellFormed.preceded 0 unit rfl isLow
    exact absurd next (Nat.succ_ne_zero before)

theorem not_isSurrogate_pairCodePoint (high low : UInt16) :
    isSurrogate (pairCodePoint high low) = false := by
  rw [Bool.eq_false_iff, ne_eq, isSurrogate_iff]
  unfold pairCodePoint
  omega

theorem isWellFormed_iff (units : List UInt16) : isWellFormed units = true ↔ WellFormed units := by
  induction units using codePoints.induct with
  | case1 => exact ⟨fun _ => .nil, fun _ => rfl⟩
  | case2 unit =>
      cases surrogate : isSurrogate unit.toNat with
      | false => simp [isWellFormed, codePoints, surrogate, WellFormed.single surrogate]
      | true =>
          have broken := @not_wellFormed_cons [] unit surrogate (by simp)
          simp [isWellFormed, codePoints, surrogate, broken]
  | case3 first second rest pair ih =>
      obtain ⟨isHigh, isLow⟩ := Bool.and_eq_true_iff.mp pair
      rw [WellFormed.cons_cons_iff isHigh isLow, ← ih]
      simp [isWellFormed, codePoints, pair, not_isSurrogate_pairCodePoint]
  | case4 first second rest apart ih =>
      cases surrogate : isSurrogate first.toNat with
      | false =>
          rw [WellFormed.cons_iff surrogate, ← ih]
          simp [isWellFormed, codePoints, apart, surrogate]
      | true =>
          have broken := @not_wellFormed_cons (second :: rest) first surrogate (by simpa using apart)
          simp [isWellFormed, codePoints, apart, surrogate, broken]

theorem encodeChar_toChar_unit (plain : isSurrogate unit.toNat = false) :
    encodeChar (toChar unit.toNat) = [unit] := by
  have small := unit.toNat_lt
  have valid : unit.toNat.isValidChar := by
    rw [Bool.eq_false_iff, ne_eq, isSurrogate_iff] at plain
    unfold Nat.isValidChar
    omega
  rw [encodeChar, toNat_toChar _ valid, if_pos small, UInt16.ofNat_toNat]

theorem encodeChar_toChar_pair (isHigh : isHighSurrogate high = true)
    (isLow : isLowSurrogate low = true) :
    encodeChar (toChar (pairCodePoint high low)) = [high, low] := by
  rw [isHighSurrogate_iff] at isHigh
  rw [isLowSurrogate_iff] at isLow
  have valid : (pairCodePoint high low).isValidChar := by
    unfold Nat.isValidChar pairCodePoint
    omega
  have large : ¬ pairCodePoint high low < 0x10000 := by
    unfold pairCodePoint
    omega
  have upper : 0xD800 + (pairCodePoint high low - 0x10000) / 0x400 = high.toNat := by
    unfold pairCodePoint
    omega
  have lower : 0xDC00 + (pairCodePoint high low - 0x10000) % 0x400 = low.toNat := by
    unfold pairCodePoint
    omega
  rw [encodeChar, toNat_toChar _ valid, if_neg large, upper, lower, UInt16.ofNat_toNat,
    UInt16.ofNat_toNat]

/-- A well-formed string is the UTF-16 of the text it decodes to. -/
theorem WellFormed.encode_decode (wellFormed : WellFormed units) :
    encode (decode units) = units := by
  induction units using codePoints.induct with
  | case1 => rfl
  | case2 unit =>
      have plain := (isWellFormed_iff [unit]).mpr wellFormed
      simp only [isWellFormed, codePoints, List.all_cons, List.all_nil, Bool.and_true,
        Bool.not_eq_true'] at plain
      simp [encode, decode, codePoints, encodeChar_toChar_unit plain]
  | case3 first second rest pair ih =>
      obtain ⟨isHigh, isLow⟩ := Bool.and_eq_true_iff.mp pair
      have later := ih ((WellFormed.cons_cons_iff isHigh isLow).mp wellFormed)
      simp only [encode, decode, codePoints, pair, ↓reduceIte, List.map_cons, List.flatMap_cons,
        encodeChar_toChar_pair isHigh isLow] at later ⊢
      rw [later, List.cons_append, List.cons_append, List.nil_append]
  | case4 first second rest apart ih =>
      cases surrogate : isSurrogate first.toNat with
      | true =>
          exact absurd wellFormed
            (@not_wellFormed_cons (second :: rest) first surrogate (by simpa using apart))
      | false =>
          have later := ih ((WellFormed.cons_iff surrogate).mp wellFormed)
          simp only [encode, decode, codePoints, apart, Bool.false_eq_true, ↓reduceIte,
            List.map_cons, List.flatMap_cons, encodeChar_toChar_unit surrogate] at later ⊢
          rw [later, List.cons_append, List.nil_append]

theorem wellFormed_encode (text : List Char) : WellFormed (encode text) := by
  rw [← isWellFormed_iff, isWellFormed, codePoints_encode, List.all_map, List.all_eq_true]
  intro char _
  have scalar := char.valid
  rw [Function.comp_apply, Bool.not_eq_true', Bool.eq_false_iff, ne_eq, isSurrogate_iff]
  unfold Char.toNat
  omega

end DjApp.Library.Utf16
