import Mathlib.Data.List.Basic

/- UTF-16. A character is one code unit, or a pair of surrogates with ten bits in each. -/
namespace Utf16

def isHigh (unit : UInt16) : Bool := 0xd800 ≤ unit.toNat && unit.toNat < 0xdc00

def isLow (unit : UInt16) : Bool := 0xdc00 ≤ unit.toNat && unit.toNat < 0xe000

def pair (high low : UInt16) : Nat :=
  0x10000 + high.toNat % 0x400 * 0x400 + low.toNat % 0x400

def encodeChar (c : Char) : List UInt16 :=
  if c.toNat < 0x10000 then [UInt16.ofNat c.toNat]
  else
    [UInt16.ofNat (0xd800 + (c.toNat - 0x10000) / 0x400),
      UInt16.ofNat (0xdc00 + (c.toNat - 0x10000) % 0x400)]

def encode (chars : List Char) : List UInt16 := chars.flatMap encodeChar

/-- Every surrogate has its other half beside it. -/
def wellFormed : List UInt16 → Bool
  | [] => true
  | unit :: rest =>
    if isHigh unit then
      match rest with
      | [] => false
      | low :: rest => isLow low && wellFormed rest
    else !isLow unit && wellFormed rest

section Characters

theorem toNat_valid (c : Char) : c.toNat < 0xd800 ∨ 0xdfff < c.toNat ∧ c.toNat < 0x110000 :=
  c.valid

theorem toNat_ofNat {n : Nat} (valid : n < 0xd800 ∨ 0xdfff < n ∧ n < 0x110000) :
    (Char.ofNat n).toNat = n := by
  have valid' : n.isValidChar := valid
  rw [Char.ofNat, dif_pos valid']
  rfl

theorem toNat_unit {n : Nat} (small : n < 0x10000) : (UInt16.ofNat n).toNat = n := by
  rw [UInt16.toNat_ofNat']
  exact Nat.mod_eq_of_lt small

inductive Encodes (c : Char) : List UInt16 → Prop where
  | unit (unit : UInt16) (same : unit.toNat = c.toNat) (high : isHigh unit = false)
      (low : isLow unit = false) : Encodes c [unit]
  | pair (high low : UInt16) (first : isHigh high = true) (second : isLow low = true)
      (same : Utf16.pair high low = c.toNat) : Encodes c [high, low]

theorem encodeChar_encodes (c : Char) : Encodes c (encodeChar c) := by
  have valid := toNat_valid c
  unfold encodeChar
  split
  · rename_i small
    have same := toNat_unit small
    refine .unit _ same ?_ ?_
    · simp only [isHigh, same, Bool.and_eq_false_iff, decide_eq_false_iff_not]
      omega
    · simp only [isLow, same, Bool.and_eq_false_iff, decide_eq_false_iff_not]
      omega
  · have high : (UInt16.ofNat (0xd800 + (c.toNat - 0x10000) / 0x400)).toNat =
        0xd800 + (c.toNat - 0x10000) / 0x400 := toNat_unit (by omega)
    have low : (UInt16.ofNat (0xdc00 + (c.toNat - 0x10000) % 0x400)).toNat =
        0xdc00 + (c.toNat - 0x10000) % 0x400 := toNat_unit (by omega)
    refine .pair _ _ ?_ ?_ ?_
    · simp only [isHigh, high, Bool.and_eq_true, decide_eq_true_eq]
      omega
    · simp only [isLow, low, Bool.and_eq_true, decide_eq_true_eq]
      omega
    · simp only [pair, high, low]
      omega

theorem encodeChar_unit {unit : UInt16} (high : isHigh unit = false) (low : isLow unit = false) :
    encodeChar (Char.ofNat unit.toNat) = [unit] := by
  simp only [isHigh, Bool.and_eq_false_iff, decide_eq_false_iff_not] at high
  simp only [isLow, Bool.and_eq_false_iff, decide_eq_false_iff_not] at low
  have small : unit.toNat < 0x10000 := unit.toNat_lt
  have same := toNat_ofNat (n := unit.toNat) (by omega)
  unfold encodeChar
  rw [same, if_pos small, UInt16.ofNat_toNat]

theorem encodeChar_pair {high low : UInt16} (first : isHigh high = true)
    (second : isLow low = true) : encodeChar (Char.ofNat (pair high low)) = [high, low] := by
  simp only [isHigh, Bool.and_eq_true, decide_eq_true_eq] at first
  simp only [isLow, Bool.and_eq_true, decide_eq_true_eq] at second
  have value : pair high low = 0x10000 + (high.toNat - 0xd800) * 0x400 + (low.toNat - 0xdc00) := by
    unfold pair
    omega
  have same := toNat_ofNat (n := pair high low) (by omega)
  unfold encodeChar
  rw [same, if_neg (by omega)]
  have back : 0xd800 + (pair high low - 0x10000) / 0x400 = high.toNat := by omega
  have back' : 0xdc00 + (pair high low - 0x10000) % 0x400 = low.toNat := by omega
  rw [back, back', UInt16.ofNat_toNat, UInt16.ofNat_toNat]

end Characters

@[simp] theorem encode_nil : encode [] = [] := rfl

@[simp] theorem encode_cons (c : Char) (chars : List Char) :
    encode (c :: chars) = encodeChar c ++ encode chars := List.flatMap_cons

theorem wellFormed_unit {unit : UInt16} (high : isHigh unit = false) (rest : List UInt16) :
    wellFormed (unit :: rest) = (!isLow unit && wellFormed rest) := by
  rw [wellFormed.eq_def]
  simp [high]

theorem wellFormed_pair {high : UInt16} (first : isHigh high = true) (low : UInt16)
    (rest : List UInt16) :
    wellFormed (high :: low :: rest) = (isLow low && wellFormed rest) := by
  rw [wellFormed.eq_def]
  simp [first]

theorem wellFormed_encode (chars : List Char) : wellFormed (encode chars) = true := by
  induction chars with
  | nil => rfl
  | cons c chars ih =>
    have encodes := encodeChar_encodes c
    rw [encode_cons]
    generalize encodeChar c = units at encodes
    cases encodes with
    | unit unit same high low => simp [wellFormed_unit high, low, ih]
    | pair high low first second same => simp [wellFormed_pair first, second, ih]

theorem exists_encode {units : List UInt16} (valid : wellFormed units = true) :
    ∃ chars, encode chars = units := by
  induction units using wellFormed.induct with
  | case1 => exact ⟨[], rfl⟩
  | case2 unit high =>
    simp [wellFormed, high] at valid
  | case3 unit high low rest ih =>
    rw [wellFormed_pair high, Bool.and_eq_true] at valid
    obtain ⟨chars, rfl⟩ := ih valid.2
    refine ⟨Char.ofNat (pair unit low) :: chars, ?_⟩
    rw [encode_cons, encodeChar_pair high valid.1]
    rfl
  | case4 unit rest high ih =>
    have high' : isHigh unit = false := by simpa using high
    rw [wellFormed_unit high', Bool.and_eq_true] at valid
    obtain ⟨chars, rfl⟩ := ih valid.2
    refine ⟨Char.ofNat unit.toNat :: chars, ?_⟩
    rw [encode_cons, encodeChar_unit high' (by simpa using valid.1)]
    rfl

theorem encodeChar_zero : encodeChar (Char.ofNat 0) = [0] := rfl

theorem encodeChar_nonzero {c : Char} (other : c ≠ Char.ofNat 0) :
    ∀ unit ∈ encodeChar c, unit ≠ 0 := by
  have encodes := encodeChar_encodes c
  generalize encodeChar c = units at encodes
  cases encodes with
  | unit unit same =>
    intro unit' member zero
    rw [List.mem_singleton.mp member] at zero
    rw [zero] at same
    exact other (Char.toNat_inj.mp same.symm)
  | pair high low first second =>
    intro unit member zero
    rcases List.mem_pair.mp member with rfl | rfl
    · subst zero
      cases first
    · subst zero
      cases second

theorem takeWhile_flatMap {α β : Type} (code : α → List β) (p : α → Bool) (q : β → Bool)
    (ends : ∀ a rest, p a = false → (code a ++ rest).takeWhile q = [])
    (goes : ∀ a, p a = true → ∀ b ∈ code a, q b = true) {tail : List β}
    (last : tail.takeWhile q = []) (text : List α) :
    (text.flatMap code ++ tail).takeWhile q = (text.takeWhile p).flatMap code := by
  induction text with
  | nil => simpa using last
  | cons a text ih =>
    rw [List.flatMap_cons, List.append_assoc]
    cases here : p a with
    | false => rw [ends a _ here, List.takeWhile_cons_of_neg (by simp [here]), List.flatMap_nil]
    | true =>
      rw [List.takeWhile_append_of_pos (goes a here), ih, List.takeWhile_cons_of_pos here,
        List.flatMap_cons]

theorem takeWhile_encode (chars : List Char) : (encode chars).takeWhile (· ≠ 0) =
    encode (chars.takeWhile (· ≠ Char.ofNat 0)) := by
  have split := takeWhile_flatMap encodeChar (· ≠ Char.ofNat 0) (· ≠ 0) ?_ ?_
    List.takeWhile_nil chars
  · simpa [encode] using split
  · intro c rest nul
    obtain rfl : c = Char.ofNat 0 := by simpa using nul
    rw [encodeChar_zero]
    exact List.takeWhile_cons_of_neg (by simp)
  · intro c other unit member
    simpa using encodeChar_nonzero (by simpa using other) unit member

end Utf16
